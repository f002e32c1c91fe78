import Glet.Effects

/-!
# Batch size, duty cycle and throughput

A task that runs `batch` requests once per duty cycle of `d` ms is served at
`1000 * batch / d` requests per second. `Timed` says that the three numbers
of every entry of a node agree in this way. With interference and self
tuning off all routines keep it: those that place a gpu-let on an empty
node, and `allocateTimeShare`, which rewrites all entries of a node when it
changes the duty cycle.
-/

namespace Glet

open Recorder

/-- The entries of a node run at the throughput they advertise. -/
def Timed (n : Node) : Prop :=
  n.vTaskList = [] ∨ ∃ d, n.dutyCycle = some d ∧ ∀ t ∈ n.vTaskList,
    1 ≤ t.batchSize ∧ t.batchSize ≤ maxBatch ∧ t.throughput * d = 1000 * t.batchSize

theorem Timed.empty {n : Node} (h : n.vTaskList = []) : Timed n := Or.inl h

/-- Entries and duty cycle are all that matters. -/
theorem Timed.of_subset {n n' : Node} (h : Timed n) (hduty : n'.dutyCycle = n.dutyCycle)
    (hsub : n'.vTaskList ⊆ n.vTaskList) : Timed n' := by
  rcases h with hnil | ⟨d, hd, hall⟩
  · rw [hnil] at hsub
    exact Or.inl (List.subset_nil.mp hsub)
  · exact Or.inr ⟨d, hduty.trans hd, fun t ht => hall t (hsub ht)⟩

theorem Timed.single {n : Node} {t : Task} {d : ℚ} (htasks : n.vTaskList = [t])
    (hduty : n.dutyCycle = some d) (hlo : 1 ≤ t.batchSize) (hhi : t.batchSize ≤ maxBatch)
    (hrate : t.throughput * d = 1000 * t.batchSize) : Timed n := by
  refine Or.inr ⟨d, hduty, fun u hu => ?_⟩
  rw [htasks] at hu
  rw [List.mem_singleton.mp hu]
  exact ⟨hlo, hhi, hrate⟩

variable {s : Scheduler} {c : Core} {act : Action} {a : Addr} {f : Node → Node} {n : Node}

/-- A co-located task that `allocateTimeShare` re-timed. -/
theorem retime_timed {duty : Int} {t : Task} (hduty : 1 ≤ duty) (hbatch : 1 ≤ sharedBatch duty t) :
    1 ≤ (retime duty t).batchSize ∧ (retime duty t).batchSize ≤ maxBatch ∧
      (retime duty t).throughput * duty = 1000 * (retime duty t).batchSize := by
  refine ⟨le_min hbatch (by decide), min_le_right _ _, ?_⟩
  have hne : (duty : ℚ) ≠ 0 := by exact_mod_cast (by omega : duty ≠ 0)
  simp only [retime]
  rw [div_mul_cancel₀ _ hne]
  ring

theorem Timed.writes (hi : s.useInterference = false) (ht : s.useSelfTuning = false)
    (hd : Detail s c act) (hw : act.writes s.useRepartition c = some (a, f))
    (hn : c.sim.node? a = some n) (h : Timed n) : Timed (f n) := by
  cases act <;> simp only [Action.writes, Option.some.injEq, Prod.mk.injEq, reduceCtorEq] at hw
  all_goals obtain ⟨rfl, rfl⟩ := hw
  case forget => exact h.of_subset rfl List.eraseP_subset
  case occupy => exact h.of_subset rfl (List.Subset.refl _)
  case fit b org checked =>
      obtain ⟨m, gpu, e, d, v, -, -, -, -, hlet, -⟩ := hd.target
      exact .single (n := copyToNode org n s.useRepartition) hlet.tasks hlet.duty hlet.batch_pos
        hlet.batch_le (hlet.plain ht).1
  case prime b duty occ =>
      obtain ⟨m, hm, hnil⟩ := hd
      obtain rfl : n = m := Option.some.inj (hn.symm.trans hm)
      exact .empty hnil
  case place b kind t duty occ =>
      obtain ⟨m, k, v, hm, hnil, hpos, hle, hmax, -⟩ := hd.target
      obtain rfl : n = m := Option.some.inj (hn.symm.trans hm)
      exact .single (t := t) (d := duty) (by simp [hnil]) rfl hpos (hle.trans hmax) hd.rate_duty
  case revert => exact .empty rfl
  case adjust =>
      obtain ⟨hon, -⟩ := hd
      rw [hi] at hon
      cases hon
  case wipe => exact .empty rfl
  case merged b t duty occ left =>
      obtain ⟨m, v, hm, hnil, -⟩ := hd.target
      obtain rfl : n = m := Option.some.inj (hn.symm.trans hm)
      have hne : (t.requestRate : ℚ) ≠ 0 := by exact_mod_cast hd.rate_ne
      refine .single (t := t) (d := duty) (by simp [hnil]) rfl hd.batch_pos hd.batch_le ?_
      rw [hd.throughput_eq, hd.duty_eq]
      field_simp
  case share b t duty occ left =>
      obtain ⟨m, _, _, hm, hshares⟩ := hd.target
      obtain rfl : n = m := Option.some.inj (hn.symm.trans hm)
      have hne : (duty : ℚ) ≠ 0 := by
        have := hd.duty_pos
        exact_mod_cast (by omega : duty ≠ 0)
      refine Or.inr ⟨duty, rfl, fun u hu => ?_⟩
      rcases List.mem_append.mp hu with hu | hu
      · obtain ⟨t0, ht0, rfl⟩ := List.mem_map.mp hu
        exact retime_timed hd.duty_pos (Scheduler.sharedLatency_batch hshares.others_ok t0 ht0)
      · rw [List.mem_singleton.mp hu]
        refine ⟨hd.batch_pos, hshares.batch_le, ?_⟩
        have hthr : t.throughput = t.batchSize * (1000 / duty) := by
          conv_lhs => rw [hd.new_eq]
          rfl
        rw [hthr]
        field_simp

theorem Timed.copy {rate : Int} (h : Timed n) : Timed (SimState.copyNode rate n) := by
  rcases h with hnil | ⟨d, hd, hall⟩
  · exact .empty (by simp [SimState.copyNode, hnil])
  · refine Or.inr ⟨d, hd, fun t ht => ?_⟩
    obtain ⟨t0, ht0, rfl⟩ := List.mem_map.mp ht
    exact hall t0 ht0

/-- **Advertised rate equals executed rate.** With interference and self tuning
off, every entry of every reachable decision has a batch size from 1 to
`_MAX_BATCH`, and its throughput times its node's duty cycle is 1000 times
that. -/
theorem reachable_timed (hi : s.useInterference = false) (ht : s.useSelfTuning = false)
    {sim : SimState} (h : Reachable s (Fresh s) sim) {n : Node} {t : Task} (hn : n ∈ sim.nodes)
    (hmem : t ∈ n.vTaskList) :
    1 ≤ t.batchSize ∧ t.batchSize ≤ maxBatch ∧
      ∃ d, n.dutyCycle = some d ∧ t.throughput * d = 1000 * t.batchSize := by
  have hevery : Every Timed sim := by
    refine h.invariant (fun sim hs => hs.every fun _ => Timed.empty) ?_ ?_
    · intro k repart ids c act hc hguard
      refine Every.apply (s := (s.setMaxGPUs k).withRepart repart) (fun _ => Timed.empty)
        hguard.1 hc ?_
      intro a f n hw hn hP
      exact hP.writes (s := (s.setMaxGPUs k).withRepart repart) hi ht hguard.1 hw hn
    · intro sim hc a n hn
      rw [SimState.node?_copy] at hn
      obtain ⟨m, hm, rfl⟩ := Option.map_eq_some_iff.mp hn
      exact (hc a m hm).copy
  obtain ⟨a, ha⟩ := SimState.mem_nodes.mp hn
  rcases hevery a n ha with hnil | ⟨d, hd, hall⟩
  · rw [hnil] at hmem
    cases hmem
  · obtain ⟨h1, h2, h3⟩ := hall t hmem
    exact ⟨h1, h2, d, hd, h3⟩

/-- Two models that share a node after one run. -/
theorem timed_after_sharing :
    ∃ o n t, (Scheduler.plain (Scheduler.profile [100] fun _ _ => 5) [100] 1).firstRun
        [Scheduler.request 0 100 30, Scheduler.request 1 51 60] true = .ok o ∧
      n ∈ o.out.nodes ∧ t ∈ n.vTaskList ∧ n.vTaskList.length = 2 ∧
      ∃ d, n.dutyCycle = some d ∧ t.throughput * d = 1000 * t.batchSize := by
  obtain ⟨o, hrun, ho⟩ := Query.of_returns
    (q := (Scheduler.plain (Scheduler.profile [100] fun _ _ => 5) [100] 1).firstRun
      [Scheduler.request 0 100 30, Scheduler.request 1 51 60] true)
    (p := fun o => decide (o.ret = .success ∧ o.out.nodes.map (·.vTaskList.length) = [2]))
    (by decide +kernel)
  obtain ⟨hret, hlen⟩ := of_decide_eq_true ho
  obtain ⟨n, hn, hlen⟩ := List.map_eq_singleton_iff.mp hlen
  have hmem : n ∈ o.out.nodes := by simp [hn]
  obtain ⟨t, ts, hts⟩ := List.exists_cons_of_length_eq_add_one hlen
  have ht : t ∈ n.vTaskList := by simp [hts]
  have htimed := reachable_timed
    (s := Scheduler.plain (Scheduler.profile [100] fun _ _ => 5) [100] 1) rfl rfl
    (.out (.start (Scheduler.setUp_fresh rfl)) .empty hrun hret) hmem ht
  exact ⟨o, n, t, hrun, hmem, ht, hlen, htimed.2.2⟩

end Glet
