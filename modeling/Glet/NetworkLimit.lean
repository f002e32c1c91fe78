import Mathlib.Order.Bounds.Basic
import Glet.Revert

/-!
# The largest batch a network limit leaves

`adjustBatchSizetoNetBW` takes a task by reference and walks from its batch down
to 1; the first batch whose throughput fits beside what the GPU carries is
written back. The model the scheduler uses returns the adjusted task instead
(`Scheduler.adjustBatchSizetoNetBW`). Here the routine is followed write by
write, shown to be the same (`adjustInPlace_eq`), and its result is the greatest
batch that `isBandwidthOK` accepts (`adjustInPlace_greatest`).
-/

namespace Glet

namespace Scheduler

variable {s : Scheduler} {t t' : Task} {gpu : GPU} {ret : Ret} {remainBW : ℚ} {i : Nat}

/-! ## The routine, write by write -/

/-- The loop, on the task behind `task_ptr`. Nothing is written before the
return, so every turn reads the old throughput. -/
def adjustInPlaceLoop (s : Scheduler) (currBatch : Int) (remainBW : ℚ) :
    Nat → Task → Query (Ret × Task)
  | 0, task => .ok (.failure, task)
  | i + 1, task => do
      let ratio ← fdiv (i + 1 : Nat) currBatch
      let required := ratio * task.throughput * s.taskIDtoRequiredBytesPerRequest task.id
      let required := required * 8 / 1024 / 1024 / 1024
      if required ≤ remainBW then
        let task := { task with batchSize := (i + 1 : Nat) }
        let task := { task with throughput := ratio * task.throughput }
        return (.success, task)
      else adjustInPlaceLoop s currBatch remainBW i task

/-- `adjustBatchSizetoNetBW(TaskPtr&, GPUPtr&)`: what it returns and the task
afterwards. -/
def adjustInPlace (s : Scheduler) (task : Task) (gpu : GPU) : Query (Ret × Task) := do
  let remainBW := max (limitGbits - s.getRequiredBandwidth gpu) 0
  if remainBW = 0 then return (.failure, task)
  else
    assert (task.batchSize ≠ 0 ∧ task.throughput ≠ 0)
    let currBatch := task.batchSize
    s.adjustInPlaceLoop currBatch remainBW currBatch.toNat task

/-- What a caller sees of an adjustment that returns the task. -/
def seenInPlace (t : Task) : Option Task → Ret × Task
  | some t' => (.success, t')
  | none => (.failure, t)

theorem adjustInPlaceLoop_eq :
    s.adjustInPlaceLoop t.batchSize remainBW i t =
      seenInPlace t <$> s.netBatchLoop t remainBW i := by
  induction i with
  | zero => rfl
  | succ i ih =>
      simp only [adjustInPlaceLoop, netBatchLoop]
      cases fdiv (i + 1 : Nat) t.batchSize with
      | error f => rfl
      | ok ratio =>
          simp only [bind, Except.bind]
          split
          · rfl
          · exact ih

/-- The routine of the scheduler's model is the one on the pointer. -/
theorem adjustInPlace_eq :
    s.adjustInPlace t gpu = seenInPlace t <$> s.adjustBatchSizetoNetBW t gpu := by
  unfold adjustInPlace adjustBatchSizetoNetBW
  simp only
  split
  · rfl
  · rw [adjustInPlaceLoop_eq]
    cases assert (t.batchSize ≠ 0 ∧ t.throughput ≠ 0) <;> rfl

/-! ## The greatest batch that fits -/

/-- The task at batch `i`, its throughput scaled. -/
def atBatch (t : Task) (i : Int) : Task :=
  { t with batchSize := i, throughput := (i : ℚ) / t.batchSize * t.throughput }

/-- Bandwidth of the task at batch `i`, in gbits. -/
def scaledGbits (s : Scheduler) (t : Task) (i : Int) : ℚ :=
  (i : ℚ) / t.batchSize * t.throughput * s.taskIDtoRequiredBytesPerRequest t.id *
    8 / 1024 / 1024 / 1024

/-- Bandwidth a GPU has left. -/
def remainingGbits (s : Scheduler) (gpu : GPU) : ℚ := limitGbits - s.getRequiredBandwidth gpu

/-- The batches the limit leaves a task. -/
def fittingBatches (s : Scheduler) (t : Task) (remainBW : ℚ) : Set Int :=
  { i | 1 ≤ i ∧ i ≤ t.batchSize ∧ s.scaledGbits t i ≤ remainBW }

/-- From batch `i` down the loop stops at the first batch that fits. -/
theorem netBatchLoop_first (s : Scheduler) (t : Task) (remainBW : ℚ) (i : Nat)
    (hb : t.batchSize ≠ 0) :
    (s.netBatchLoop t remainBW i = .ok none ∧
      ∀ k : Int, 1 ≤ k → k ≤ i → ¬ s.scaledGbits t k ≤ remainBW) ∨
    ∃ k : Int, s.netBatchLoop t remainBW i = .ok (some (atBatch t k)) ∧ 1 ≤ k ∧ k ≤ i ∧
      s.scaledGbits t k ≤ remainBW ∧
      ∀ j : Int, k < j → j ≤ i → ¬ s.scaledGbits t j ≤ remainBW := by
  induction i with
  | zero => exact Or.inl ⟨rfl, fun k h1 h2 => by omega⟩
  | succ i ih =>
      have hdiv : fdiv (i + 1 : Nat) t.batchSize = .ok (((i + 1 : Nat) : ℚ) / t.batchSize) :=
        fdiv_ok.mpr ⟨by exact_mod_cast hb, rfl⟩
      have hcast : (((i + 1 : Nat) : Int) : ℚ) = ((i + 1 : Nat) : ℚ) := by push_cast; rfl
      have hstep : s.netBatchLoop t remainBW (i + 1) =
          if s.scaledGbits t (i + 1 : Nat) ≤ remainBW then .ok (some (atBatch t (i + 1 : Nat)))
          else s.netBatchLoop t remainBW i := by
        simp only [netBatchLoop, hdiv, bind, Except.bind, scaledGbits, atBatch, hcast]
        rfl
      rw [hstep]
      by_cases hfits : s.scaledGbits t (i + 1 : Nat) ≤ remainBW
      · rw [if_pos hfits]
        exact Or.inr ⟨_, rfl, by omega, le_rfl, hfits, fun j h1 h2 => by omega⟩
      · rw [if_neg hfits]
        have hpassed : ∀ k : Int, k ≤ (i + 1 : Nat) → k ≤ i ∨ k = (i + 1 : Nat) := by omega
        rcases ih with ⟨hnone, hnot⟩ | ⟨k, hsome, h1, hle, hk, hnot⟩
        · refine Or.inl ⟨hnone, fun k h1 h2 => ?_⟩
          rcases hpassed k h2 with hlow | rfl
          · exact hnot k h1 hlow
          · exact hfits
        · refine Or.inr ⟨k, hsome, h1, by omega, hk, fun j hj h2 => ?_⟩
          rcases hpassed j h2 with hlow | rfl
          · exact hnot j hj hlow
          · exact hfits

/-- A GPU carries what it carried and what is added to one of its nodes. -/
theorem isBandwidthOK_push {j : Nat} {n : Node} (hn : gpu.vNodeList[j]? = some n)
    (hfits : s.requiredBytes [t] * 8 / 1024 / 1024 / 1024 ≤ s.remainingGbits gpu) :
    s.isBandwidthOK { gpu with
      vNodeList := gpu.vNodeList.set j { n with vTaskList := n.vTaskList ++ [t] } } = true := by
  have hnew : s.nodeGbits { n with vTaskList := n.vTaskList ++ [t] } =
      s.nodeGbits n + s.requiredBytes [t] * 8 / 1024 / 1024 / 1024 := by
    simp only [nodeGbits, requiredBytes_append]
    ring
  rw [isBandwidthOK, decide_eq_true_eq, getRequiredBandwidth_eq, GPU.total_set _ hn, hnew,
    ← getRequiredBandwidth_eq]
  unfold remainingGbits at hfits
  linarith

/-- The load of the later check is the one the loop compared. -/
theorem requiredBytes_atBatch {k : Int} :
    s.requiredBytes [atBatch t k] * 8 / 1024 / 1024 / 1024 = s.scaledGbits t k := by
  simp [requiredBytes, atBatch, scaledGbits]

/-- **Network batch.** The routine succeeds if and only if bandwidth is left and
some batch fits in it. The batch it leaves is the greatest that fits, the
throughput is scaled with it and nothing else of the task changes; wherever on
the GPU the task goes, the GPU stays within its limit. A task that fits with no
batch is left alone. -/
theorem adjustInPlace_greatest (hb : 1 ≤ t.batchSize) (hthr : 0 < t.throughput) :
    ∃ ret t', s.adjustInPlace t gpu = .ok (ret, t') ∧
      (ret = .success ↔ 0 < s.remainingGbits gpu ∧
        ∃ i : Int, 1 ≤ i ∧ i ≤ t.batchSize ∧ s.scaledGbits t i ≤ s.remainingGbits gpu) ∧
      (ret = .success →
        IsGreatest (s.fittingBatches t (s.remainingGbits gpu)) t'.batchSize ∧
        t'.throughput = (t'.batchSize : ℚ) / t.batchSize * t.throughput ∧
        t' = { t with batchSize := t'.batchSize, throughput := t'.throughput } ∧
        ∀ (j : Nat) (n : Node), gpu.vNodeList[j]? = some n →
          s.isBandwidthOK { gpu with
            vNodeList := gpu.vNodeList.set j { n with vTaskList := n.vTaskList ++ [t'] } } =
              true) ∧
      (ret ≠ .success → ret = .failure ∧ t' = t) := by
  have hrun : s.adjustInPlace t gpu = seenInPlace t <$> s.adjustBatchSizetoNetBW t gpu :=
    adjustInPlace_eq
  simp only [adjustBatchSizetoNetBW] at hrun
  have hleft : limitGbits - s.getRequiredBandwidth gpu = s.remainingGbits gpu := rfl
  rw [hleft] at hrun
  by_cases hroom : 0 < s.remainingGbits gpu
  · have hmax : max (s.remainingGbits gpu) 0 = s.remainingGbits gpu := max_eq_left hroom.le
    have hassert : assert (t.batchSize ≠ 0 ∧ t.throughput ≠ 0) = .ok () :=
      assert_ok.mpr ⟨by omega, hthr.ne'⟩
    rw [hmax, if_neg hroom.ne', hassert] at hrun
    have hall : ((t.batchSize.toNat : Nat) : Int) = t.batchSize := Int.toNat_of_nonneg (by omega)
    rcases netBatchLoop_first s t (s.remainingGbits gpu) t.batchSize.toNat (by omega) with
      ⟨hnone, hnot⟩ | ⟨k, hsome, h1, hle, hk, hnot⟩
    · refine ⟨.failure, t, by rw [hrun]; simp only [bind, Except.bind, hnone]; rfl,
        ⟨fun h => absurd h (by decide), ?_⟩, fun h => absurd h (by decide), fun _ => ⟨rfl, rfl⟩⟩
      rintro ⟨-, i, hi, hib, hfits⟩
      exact absurd hfits (hnot i hi (by omega))
    · refine ⟨.success, atBatch t k, by rw [hrun]; simp only [bind, Except.bind, hsome]; rfl,
        ⟨fun _ => ⟨hroom, k, h1, by omega, hk⟩, fun _ => rfl⟩, fun _ => ⟨⟨?_, ?_⟩, rfl, rfl, ?_⟩,
        fun h => absurd rfl h⟩
      · exact ⟨h1, by rw [← hall]; exact hle, hk⟩
      · rintro i ⟨-, hib, hfits⟩
        by_contra hgt
        exact hnot i (not_le.mp hgt) (by omega) hfits
      · intro j n hn
        exact isBandwidthOK_push hn (by rw [requiredBytes_atBatch]; exact hk)
  · have hmax : max (s.remainingGbits gpu) 0 = 0 := max_eq_right (not_lt.mp hroom)
    rw [hmax, if_pos rfl] at hrun
    exact ⟨.failure, t, hrun, ⟨fun h => absurd h (by decide), fun h => absurd h.1 hroom⟩,
      fun h => absurd h (by decide), fun _ => ⟨rfl, rfl⟩⟩

/-- 602112 bytes a request at 1000 requests per second need about 4.5 gbits, so
a batch of 32 does not fit and 21 is the greatest that does. -/
theorem adjustInPlace_greatest_vision :
    ∃ t', Scheduler.adjustInPlace
        { Scheduler.plain (Scheduler.profile [100] fun _ _ => 5) [100] 1 with
          taskIDtoRequiredBytesPerRequest := fun _ => 602112 }
        ⟨0, 1000, 0, 30, 32, 1000⟩ ⟨0, 0, 0, "", [], []⟩ = .ok (.success, t') ∧
      t'.batchSize = 21 ∧ t'.throughput = (t'.batchSize : ℚ) / (32 : Int) * 1000 := by
  obtain ⟨ret, t', hrun, -, hgreat, -⟩ := @adjustInPlace_greatest
    { Scheduler.plain (Scheduler.profile [100] fun _ _ => 5) [100] 1 with
      taskIDtoRequiredBytesPerRequest := fun _ => 602112 }
    ⟨0, 1000, 0, 30, 32, 1000⟩ ⟨0, 0, 0, "", [], []⟩ (by decide) (by norm_num)
  have heval : Scheduler.adjustInPlace
      { Scheduler.plain (Scheduler.profile [100] fun _ _ => 5) [100] 1 with
        taskIDtoRequiredBytesPerRequest := fun _ => 602112 }
      ⟨0, 1000, 0, 30, 32, 1000⟩ ⟨0, 0, 0, "", [], []⟩ =
        .ok (.success, atBatch ⟨0, 1000, 0, 30, 32, 1000⟩ 21) := by
    decide +kernel
  obtain ⟨rfl, rfl⟩ := Prod.mk.injEq .. |>.mp (Except.ok.inj (heval.symm.trans hrun))
  exact ⟨_, hrun, rfl, (hgreat rfl).2.1⟩

end Scheduler

end Glet
