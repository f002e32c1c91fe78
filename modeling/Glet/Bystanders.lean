import Glet.Entries

/-!
# Models outside the session

`runScheduling` on a session leaves the other models of the decision where
they are. Their throughput is another matter: when a task of the session is
time-shared onto a node, `allocateTimeShare` shortens the duty cycle and
derives the batch sizes of the node's other tasks anew, rounding down, and
no test compares the result with the throughput they had.
-/

namespace Glet

open Recorder

variable {s : Scheduler} {table : SatTable} {tasks : List Task} {prev out : SimState}
  {repart : Bool} {o : Outcome}

/-- The models that do not occur in a session. -/
def outside (tasks : List Task) (id : Int) : Bool := decide (id ∉ tasks.map (·.id))

/-- **Bystanders keep their throughput** in every successful run whose time
sharing lowers none of them. -/
theorem bystanders_keep_throughput (htab : Built s table)
    (h : s.runScheduling table tasks prev out repart = .ok o) (hret : o.ret = .success)
    (hkeep : ∀ p ∈ o.log, keepsOthers (outside tasks) p.1 p.2 = true) {id : Int}
    (hid : id ∉ tasks.map (·.id)) : throughputOf id prev ≤ throughputOf id o.out := by
  obtain ⟨-, r', hruns, hlog, -, hout, -⟩ := Scheduler.runScheduling_ok htab h
  rw [hlog] at hkeep
  have hle := hruns.sumOf_le (g := Task.throughput) (fun _ _ hle => hle) hkeep
    (decide_eq_true hid) hid
  rw [hout hret, throughputOf_eq, throughputOf_eq, total_copy]
  · exact hle
  · exact fun rate => Node.sumOf_copy (fun _ _ => rfl) id rate

/-- A first session, the memory fields of its output set up again, and a
second session on it, without repartitioning. -/
def Scheduler.twoSessions (s : Scheduler) (first second : List Task) :
    Query (SimState × Outcome) := do
  let o ← s.firstRun first true
  assert (o.ret = .success)
  let prev ← s.initDevMems o.out
  let o' ← s.runScheduling o.table second prev ⟨[], []⟩ false
  return (prev, o')

theorem Scheduler.twoSessions_ok {first second : List Task} {o' : Outcome}
    (h : s.twoSessions first second = .ok (prev, o')) :
    ∃ o, s.firstRun first true = .ok o ∧ o.ret = .success ∧ s.initDevMems o.out = .ok prev ∧
      Built s o.table ∧ s.runScheduling o.table second prev ⟨[], []⟩ false = .ok o' := by
  simp only [twoSessions, Query.bind_ok, Query.pure_ok, assert_ok, Prod.mk.injEq] at h
  obtain ⟨o, ho, -, hret, prev', hprev, o'', ho', rfl, rfl⟩ := h
  exact ⟨o, ho, hret, hprev, (runScheduling_ok .empty ho).1, ho'⟩

/-- One GPU on which every batch takes 5 ms. Model 0 is served at 100 requests
per second in a duty cycle of 20 ms; a session that asks for 50 requests per
second of model 1 shares its node and keeps that duty cycle. -/
theorem bystander_kept :
    ∃ o prev o', (Scheduler.plain (Scheduler.profile [100] fun _ _ => 5) [100] 1).firstRun
        [Scheduler.request 0 100 30] true = .ok o ∧
      (Scheduler.plain (Scheduler.profile [100] fun _ _ => 5) [100] 1).runScheduling o.table
        [Scheduler.request 1 50 60] prev ⟨[], []⟩ false = .ok o' ∧ o'.ret = .success ∧
      throughputOf 0 prev = 100 ∧ throughputOf 0 prev ≤ throughputOf 0 o'.out := by
  obtain ⟨⟨prev, o'⟩, hrun, hp⟩ := Query.of_returns
    (q := (Scheduler.plain (Scheduler.profile [100] fun _ _ => 5) [100] 1).twoSessions
      [Scheduler.request 0 100 30] [Scheduler.request 1 50 60])
    (p := fun p => decide (p.2.ret = .success ∧ throughputOf 0 p.1 = 100 ∧
      ∀ q ∈ p.2.log, keepsOthers (outside [Scheduler.request 1 50 60]) q.1 q.2 = true))
    (by decide +kernel)
  obtain ⟨hret, hthr, hkeep⟩ := of_decide_eq_true hp
  obtain ⟨o, ho, -, -, htab, hsecond⟩ := Scheduler.twoSessions_ok hrun
  exact ⟨o, prev, o', ho, hsecond, hret, hthr,
    bystanders_keep_throughput htab hsecond hret hkeep (by decide)⟩

/-- With 51 requests per second of model 1 the shared duty cycle is 19 ms, in
which model 0 gets one batch of one request: 1000 / 19 instead of 100 requests
per second. -/
theorem bystander_lowered :
    ∃ o prev o', (Scheduler.plain (Scheduler.profile [100] fun _ _ => 5) [100] 1).firstRun
        [Scheduler.request 0 100 30] true = .ok o ∧ o.ret = .success ∧
      (Scheduler.plain (Scheduler.profile [100] fun _ _ => 5) [100] 1).initDevMems o.out =
        .ok prev ∧
      (Scheduler.plain (Scheduler.profile [100] fun _ _ => 5) [100] 1).runScheduling o.table
        [Scheduler.request 1 51 60] prev ⟨[], []⟩ false = .ok o' ∧ o'.ret = .success ∧
      hosted 0 prev ∧ ¬ throughputOf 0 prev ≤ throughputOf 0 o'.out := by
  obtain ⟨⟨prev, o'⟩, hrun, hp⟩ := Query.of_returns
    (q := (Scheduler.plain (Scheduler.profile [100] fun _ _ => 5) [100] 1).twoSessions
      [Scheduler.request 0 100 30] [Scheduler.request 1 51 60])
    (p := fun p => decide (p.2.ret = .success ∧
      isModelScheduled (Scheduler.request 0 100 30) p.1 = true ∧
      ¬ throughputOf 0 p.1 ≤ throughputOf 0 p.2.out)) (by decide +kernel)
  obtain ⟨hret, hsched, hlt⟩ := of_decide_eq_true hp
  obtain ⟨o, ho, hret1, hprev, -, hsecond⟩ := Scheduler.twoSessions_ok hrun
  exact ⟨o, prev, o', ho, hret1, hprev, hsecond, hret, isModelScheduled_iff.mp hsched, hlt⟩

end Glet
