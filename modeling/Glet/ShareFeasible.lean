import Glet.Duty
import Glet.Slo

/-!
# Time sharing keeps nodes feasible

`allocateTimeShare` tests a node with batch sizes that it cuts to `_MAX_BATCH`
only when it writes them, and takes each node at most once, as it passes over
nodes that have the task already. `TimeShared` is what holds of a node it has
taken, `Taken` what holds of the decision after some turns of its loop, and the
candidates without the task are what the loop counts down.
-/

namespace Glet

open Recorder

/-! ## Ending -/

/-- A query that does not run forever. -/
structure Query.Ends {α : Type} (q : Query α) : Prop where
  ends : q ≠ .error .diverges

namespace Query.Ends

variable {α β : Type}

theorem ok (a : α) : Query.Ends (.ok a) := ⟨fun h => by cases h⟩

theorem error {f : Fault} (h : f ≠ .diverges) : Query.Ends (.error f : Query α) :=
  ⟨fun heq => h (Except.error.inj heq)⟩

theorem bind {q : Query α} {f : α → Query β} (hq : Query.Ends q) (hf : ∀ a, Query.Ends (f a)) :
    Query.Ends (q >>= f) := by
  cases hqa : q with
  | ok a => exact hf a
  | error e =>
      rw [hqa] at hq
      exact error fun he => hq.ends (congrArg Except.error he)

theorem assert (p : Prop) [Decidable p] : Query.Ends (assert p) := by
  unfold Glet.assert
  split
  · exact ok _
  · exact error (by decide)

theorem fdiv (a b : ℚ) : Query.Ends (fdiv a b) := by
  unfold Glet.fdiv
  split
  · exact error (by decide)
  · exact ok _

end Query.Ends

namespace Scheduler

variable {s : Scheduler} {r r' : Rec Core Action} {α β : Type}

/-- A program that does not run forever from a record. -/
structure Ends (p : Sched β) (r : Rec Core Action) : Prop where
  ends : p r ≠ .error .diverges

namespace Ends

theorem pure (b : β) : Ends (pure b) r := ⟨fun h => by cases h⟩

theorem act (a : Action) : Ends (s.act a) r := ⟨fun h => by cases h⟩

theorem bind {p : Sched α} {f : α → Sched β} (hp : Ends p r)
    (hf : ∀ a r', p r = .ok (a, r') → Ends (f a) r') : Ends (p >>= f) r := by
  refine ⟨?_⟩
  change Prog.bind p f r ≠ _
  unfold Prog.bind
  split
  case h_1 a r' heq => exact (hf a r' heq).ends
  case h_2 e heq =>
    intro he
    rw [Except.error.inj he] at heq
    exact hp.ends heq

/-- A reading of the state. -/
theorem ask {q : Core → Query β} (hq : (q r.cur).Ends) : Ends (Prog.ask q) r := by
  refine ⟨fun h => hq.ends ?_⟩
  unfold Prog.ask at h
  cases hqa : q r.cur with
  | ok b =>
      rw [hqa] at h
      cases h
  | error e =>
      rw [hqa] at h
      rw [Except.error.inj h]

theorem getNode (a : Addr) : Ends (getNode a) r := by
  refine .ask ?_
  cases r.cur.sim.node? a
  · exact .error (by decide)
  · exact .ok _

theorem getGPU (i : Nat) : Ends (getGPU i) r := by
  refine .ask ?_
  cases r.cur.sim.vGPUList[i]?
  · exact .error (by decide)
  · exact .ok _

end Ends

/-! ### The queries of the loop -/

theorem getModelName_ends (id : Int) : (getModelName id).Ends := by
  unfold getModelName
  split
  · exact .error (by decide)
  · cases idToModelName[id.toNat]?
    · exact .error (by decide)
    · exact .ok _

theorem soloLatency_ends (type : DeviceType) (id batch part : Int) :
    (s.soloLatency type id batch part).Ends := by
  refine .bind (getModelName_ends id) fun name => .bind ?_ fun _ => .bind ?_ fun _ => .ok _
  · unfold devLatency
    split
    · exact .ok _
    · exact .error (by decide)
  · unfold batchOverhead getBatchLatency
    split
    · exact .bind (.assert _) fun _ => .bind (.assert _) fun _ => .ok _
    · exact .ok _

theorem getLatencyOn_ends (hi : s.useInterference = false) (type : DeviceType) (id batch : Int)
    (node : Node) (sim : SimState) : (s.getLatencyOn type id batch node sim).Ends := by
  refine .bind (.assert _) fun _ => .bind (.assert _) fun _ => ?_
  rw [if_neg (by simp [hi])]
  exact soloLatency_ends ..

theorem latencySum_ends (hi : s.useInterference = false) (node : Node) (sim : SimState)
    (ts : List Task) : (s.latencySum node sim ts).Ends := by
  induction ts with
  | nil => exact .ok _
  | cons t ts ih => exact .bind (getLatencyOn_ends hi ..) fun _ => .bind ih fun _ => .ok _

theorem sharedLatency_ends (hi : s.useInterference = false) (duty : Int) (node : Node)
    (sim : SimState) (ts : List Task) : (s.sharedLatency duty node sim ts).Ends := by
  induction ts with
  | nil => exact .ok _
  | cons t ts ih => exact .bind (getLatencyOn_ends hi ..) fun _ => .bind ih fun _ => .ok _

theorem shareSearch_ends (hi : s.useInterference = false) (task : Task) (node : Node)
    (sim : SimState) (k : Nat) (acc : Int × ℚ) : (s.shareSearch task node sim k acc).Ends := by
  induction k generalizing acc with
  | zero => exact .ok _
  | succ k ih =>
      refine .bind (.fdiv _ _) fun _ => .bind (getLatencyOn_ends hi ..) fun _ => ?_
      split
      · exact .ok _
      · exact ih _

theorem shareNode_ends (hi : s.useInterference = false) (task : Task) (node : Node)
    (sim : SimState) : (s.shareNode task node sim).Ends := by
  unfold shareNode
  split
  · exact .ok _
  · dsimp only
    split
    · exact .ok _
    · have hrest : ∀ found : Int × Int × ℚ,
          Query.Ends (if found.2.1 > s.dutyOf node ∨ found.1 = 0 then return none
            else do
              let others ← s.sharedLatency found.2.1 node sim node.vTaskList
              let sum := found.2.2 + others
              if overloaded sum found.2.1 then return none
              else if (task.SLO :: node.vTaskList.map (·.SLO)).any fun slo =>
                decide (sum + found.2.1 > slo) then return none
              else return some (found.1, found.2.1)) := by
        intro found
        split
        · exact .ok _
        · refine .bind (sharedLatency_ends hi ..) fun _ => ?_
          dsimp only
          split
          · exact .ok _
          · split <;> exact .ok _
      generalize (if toInt (s.dutyOf node * (task.requestRate / 1000)) > maxBatch then maxBatch
        else toInt (s.dutyOf node * (task.requestRate / 1000))) = bound
      split
      · exact .bind (.ok _) hrest
      · exact .bind (shareSearch_ends hi ..) hrest

theorem doesFitMemLimit_ends (gpu : GPU) (id : Int) (node : Node) :
    (s.doesFitMemLimit gpu id node).Ends :=
  .bind (.assert _) fun _ => .bind (.assert _) fun _ => .ok _

theorem addGPUMemUsage_ends (a : Addr) : Ends (s.addGPUMemUsage a) r := by
  unfold addGPUMemUsage
  split
  case isFalse => exact .pure _
  case isTrue =>
    refine .bind (.getNode a) fun n _ _ => .bind (.ask (.ok _)) fun t _ _ => .bind (.getGPU _)
      fun gpu _ _ => .bind (.ask ?_) fun o _ _ => ?_
    · unfold addedGPUMemUsage
      split
      · exact .ok _
      · refine .bind (doesFitMemLimit_ends ..) fun fits => ?_
        split <;> exact .ok _
    · split <;> exact .act _

theorem shareCandidates_ends (task : Task) (sim : SimState) (tsNodes : List Node) (as : List Addr) :
    (s.shareCandidates task sim tsNodes as).Ends := by
  induction as with
  | nil => exact .ok _
  | cons a as ih =>
      unfold shareCandidates
      split
      · dsimp only
        split
        · exact .bind (doesFitMemLimit_ends ..) fun _ => .bind ih fun _ => .ok _
        · exact .bind (.ok _) fun _ => .bind ih fun _ => .ok _
      · exact .error (by decide)

theorem shareFirst_ends (hi : s.useInterference = false) (as : List Addr) :
    Ends (s.shareFirst as) r := by
  induction as generalizing r with
  | nil => exact .pure _
  | cons a as ih =>
      unfold shareFirst
      refine .bind (.getNode a) fun n _ _ => .bind (.ask (.ok _)) fun t _ _ =>
        .bind (.ask (.ok _)) fun sim _ _ => .bind (.ask (shareNode_ends hi ..)) fun o _ _ => ?_
      cases o with
      | none => exact ih
      | some p =>
          exact .bind (.ask (.fdiv _ _)) fun _ _ _ => .bind (.ask (latencySum_ends hi ..))
            fun _ _ _ => .bind (.ask (.fdiv _ _)) fun _ _ _ => .bind (.act _) fun _ _ _ =>
            .bind (addGPUMemUsage_ends a) fun _ _ _ => .pure _

/-! ## One turn -/

/-- A node after the task was added with this batch size and duty cycle. -/
def sharedNode (task : Task) (n : Node) (batch duty : Int) (occupancy : ℚ) : Node :=
  { n with
    vTaskList := n.vTaskList.map (retime duty) ++
      [createNewTask task.id task.requestRate task.SLO batch (batch * (1000 / duty))]
    dutyCycle := some (duty : ℚ), occupancy }

/-- A turn that takes no node changes nothing; another takes one node that has
passed the tests. -/
theorem shareFirst_step {as : List Addr} {found : Bool} (h : s.shareFirst as r = .ok (found, r')) :
    (found = false → r' = r) ∧ (found = true → ∃ a n batch duty occ, a ∈ as ∧
      r.cur.sim.node? a = some n ∧
      s.shareNode r.cur.task n r.cur.sim = .ok (some (batch, duty)) ∧ 1 ≤ batch ∧
      (∀ b, r'.cur.sim.node? b =
        if b = a then some (sharedNode r.cur.task n batch duty occ) else r.cur.sim.node? b) ∧
      r'.cur.task.id = r.cur.task.id ∧ 0 ≤ r'.cur.task.requestRate) := by
  rcases shareFirst_cases h with ⟨rfl, rfl⟩ | ⟨rfl, a, n, batch, duty, occ, ha, hn, ho, -, hbatch, hmem⟩
  · exact ⟨fun _ => rfl, fun hc => by cases hc⟩
  obtain ⟨hcharge, -⟩ := addGPUMemUsage_ok hmem rfl
  obtain ⟨htask, -, -, hnodes⟩ := charge_frame hcharge
  refine ⟨fun hc => by (cases hc), fun _ => ⟨a, n, batch, duty, occ, ha, hn, ho, hbatch,
    fun b => ?_, ?_, ?_⟩⟩
  · rw [hnodes b]
    simp only [Prog.after_cur, Action.apply, Core.setRate, Core.write_node?, hn,
      Option.map_some]
    rfl
  · rw [htask]
    simp [Action.apply, Core.setRate]
  · rw [htask]
    simp only [Prog.after_cur, Action.apply, Core.setRate]
    split
    case isTrue hpos =>
      rw [toInt_of_nonneg (le_of_lt hpos)]
      exact Int.floor_nonneg.mpr (le_of_lt hpos)
    case isFalse => exact le_rfl

/-! ## The node it leaves -/

/-- A node to which the task was added: it occurs there once, and all tasks
together run within the new duty cycle and the SLO of each. -/
structure TimeShared (s : Scheduler) (id : Int) (n n' : Node) : Prop where
  absent : checkContain id n = false
  ids_eq : n'.vTaskList.map (·.id) = n.vTaskList.map (·.id) ++ [id]
  once : (n'.vTaskList.map (·.id)).count id = 1
  type_eq : n'.type = n.type
  part_eq : n'.resourcePntg = n.resourcePntg
  feasible : ∃ duty sum, n'.dutyCycle = some duty ∧ duty ≤ s.dutyOf n ∧
    s.tasksLatency n'.type n'.resourcePntg n'.vTaskList = .ok sum ∧ sum ≤ duty ∧
    ∀ t ∈ n'.vTaskList, sum + duty ≤ t.SLO ∧ 1 ≤ t.batchSize ∧ t.batchSize ≤ maxBatch ∧
      t.throughput * duty = 1000 * t.batchSize

theorem checkContain_iff {id : Int} {n : Node} :
    checkContain id n = true ↔ id ∈ n.vTaskList.map (·.id) := by
  simp [checkContain]

theorem pos_of_toInt {q : ℚ} (h : 0 < toInt q) : 0 < q := by
  by_contra hq
  rcases (not_lt.mp hq).eq_or_lt with rfl | hneg
  · exact absurd h (by decide)
  · rw [toInt_of_neg hneg] at h
    have hceil : ⌈q⌉ ≤ 0 := Int.ceil_le.mpr (by exact_mod_cast hneg.le)
    omega

theorem tasksLatency_nonneg (hpos : PositiveLatency s) {type : DeviceType} {part : Int}
    {ts : List Task} {sum : ℚ} (h : s.tasksLatency type part ts = .ok sum) : 0 ≤ sum := by
  induction ts generalizing sum with
  | nil =>
      obtain rfl := Except.ok.inj h
      exact le_rfl
  | cons t ts ih =>
      obtain ⟨v, rest, hv, hrest, rfl⟩ := tasksLatency_cons.mp h
      have hvpos := soloLatency_pos hpos hv
      have hrestpos := ih hrest
      linarith

/-- A duty cycle within which the tasks ran is at least 1 ms, since they take
time. -/
theorem duty_of_load {duty : Int} {sum : ℚ} (hsum : 0 < sum) (hnonneg : 0 ≤ duty)
    (h : overloaded sum duty = false) : 1 ≤ duty ∧ sum ≤ duty := by
  unfold overloaded at h
  split at h
  case isTrue => exact absurd (decide_eq_true hsum) (by rw [h]; exact Bool.false_ne_true)
  case isFalse hne =>
    have hdq : (0 : ℚ) < duty := by exact_mod_cast (by omega : 0 < duty)
    have hle := not_lt.mp (of_decide_eq_false h)
    exact ⟨by omega, by rwa [div_le_one hdq] at hle⟩

theorem shareNode_timeShared (hi : s.useInterference = false) (hpos : PositiveLatency s)
    (hmono : BatchMonotone s) {task : Task} {n : Node} {sim : SimState} {batch duty : Int} (occ : ℚ)
    (h : s.shareNode task n sim = .ok (some (batch, duty))) (hbatch : 1 ≤ batch)
    (hsign : 0 ≤ task.requestRate ∨ 0 ≤ s.dutyOf n) :
    TimeShared s task.id n (sharedNode task n batch duty occ) := by
  obtain ⟨latency, others, hshares, hold, hload, hbound⟩ := shareNode_tested h hbatch
  have hsolo := getLatencyOn_solo hi hshares.latency_ok
  obtain ⟨sum, hsum, hle⟩ := tasksLatency_retime hi hmono hshares.others_ok
  have hlatency := soloLatency_pos hpos hsolo
  have hothers := tasksLatency_nonneg hpos hsum
  have hrate : (0 : ℚ) < task.requestRate := by
    have hprod := pos_of_toInt hbound
    rcases hsign with hsign | hsign
    · have hq : (0 : ℚ) ≤ task.requestRate := by exact_mod_cast hsign
      rcases hq.eq_or_lt with hzero | hlt
      · rw [← hzero, zero_div, mul_zero] at hprod
        exact absurd hprod (lt_irrefl 0)
      · exact hlt
    · have := pos_of_mul_pos_right hprod hsign
      linarith
  have hnonneg : 0 ≤ duty := by
    have hq : (0 : ℚ) ≤ batch * 1000 / task.requestRate := by positivity
    rw [hshares.duty_eq, toInt_of_nonneg hq]
    exact Int.floor_nonneg.mpr hq
  obtain ⟨hduty, hfits⟩ := duty_of_load (by linarith) hnonneg hload
  have hdne : (duty : ℚ) ≠ 0 := by exact_mod_cast (by omega : duty ≠ 0)
  have hids : (sharedNode task n batch duty occ).vTaskList.map (·.id) =
      n.vTaskList.map (·.id) ++ [task.id] := by
    simp [sharedNode, createNewTask, Function.comp_def, retime]
  have habsent : task.id ∉ n.vTaskList.map (·.id) := fun hmem => by
    have hc := checkContain_iff.mpr hmem
    rw [hshares.absent] at hc
    cases hc
  refine
    { absent := hshares.absent, ids_eq := hids, type_eq := rfl, part_eq := rfl, once := ?_
      feasible := ⟨duty, sum + latency, rfl, hold,
        tasksLatency_append hsum (tasksLatency_single hsolo), by linarith, fun t ht => ?_⟩ }
  · rw [hids, List.count_append, List.count_eq_zero.mpr habsent, List.count_singleton_self]
  · rcases List.mem_append.mp ht with ht | ht
    · obtain ⟨u, hu, rfl⟩ := List.mem_map.mp ht
      have hslo := hshares.slo_others u hu
      refine ⟨?_, retime_timed hduty (sharedLatency_batch hshares.others_ok u hu)⟩
      change sum + latency + duty ≤ u.SLO
      linarith
    · obtain rfl := List.mem_singleton.mp ht
      have hslo := hshares.slo
      refine ⟨?_, hbatch, hshares.batch_le, ?_⟩
      · change sum + latency + duty ≤ task.SLO
        linarith
      · simp only [createNewTask]
        field_simp

/-! ## All turns -/

/-- Every node is as it was or has been shared once. -/
def Taken (s : Scheduler) (id : Int) (sim sim' : SimState) : Prop :=
  ∀ a, sim'.node? a = sim.node? a ∨ ∃ n n', sim.node? a = some n ∧ sim'.node? a = some n' ∧
    TimeShared s id n n'

/-- The signs under which the search for a batch size makes sense. -/
def Signed (s : Scheduler) (c : Core) : Prop :=
  0 ≤ c.task.requestRate ∨ ∀ a n, c.sim.node? a = some n → 0 ≤ s.dutyOf n

/-- A node is taken only if it has not been taken before. -/
theorem Taken.share {id : Int} {sim sim' sim'' : SimState} {a : Addr} {n n' : Node}
    (h : Taken s id sim sim') (hn : sim'.node? a = some n) (hshared : TimeShared s id n n')
    (hnodes : ∀ b, sim''.node? b = if b = a then some n' else sim'.node? b) :
    Taken s id sim sim'' := by
  intro b
  rw [hnodes b]
  split
  case isFalse => exact h b
  case isTrue hba =>
    subst hba
    rcases h b with hsame | ⟨m, m', -, hm', hold⟩
    · exact Or.inr ⟨n, n', hsame ▸ hn, rfl, hshared⟩
    · obtain rfl := Option.some.inj (hn.symm.trans hm')
      have hmem : id ∈ n.vTaskList.map (·.id) := by
        rw [hold.ids_eq]
        simp
      have habsent := hshared.absent
      rw [checkContain_iff.mpr hmem] at habsent
      cases habsent

theorem shareLoop_taken (hi : s.useInterference = false) (hpos : PositiveLatency s)
    (hmono : BatchMonotone s) {candidates : List Addr} {fuel : Nat} {ret : Ret} {sim : SimState}
    (hsign : Signed s r.cur) (htaken : Taken s r.cur.task.id sim r.cur.sim)
    (h : s.shareLoop candidates fuel r = .ok (ret, r')) :
    Taken s r.cur.task.id sim r'.cur.sim := by
  induction fuel generalizing r with
  | zero =>
      unfold shareLoop at h
      obtain ⟨b, hb, -⟩ := Prog.ask_ok h
      cases hb
  | succ fuel ih =>
      unfold shareLoop at h
      replace h := getTask_bind h
      split at h
      case isTrue =>
        obtain ⟨-, rfl⟩ := pure_end h
        exact htaken
      case isFalse =>
        obtain ⟨found, r1, hfirst, h⟩ := Prog.bind_ok h
        obtain ⟨hno, hyes⟩ := shareFirst_step hfirst
        cases found with
        | false =>
            obtain ⟨-, rfl⟩ := pure_end h
            rw [hno rfl]
            exact htaken
        | true =>
            obtain ⟨a, n, batch, duty, occ, -, hn, hnode, hbatch, hnodes, hid, hrate⟩ := hyes rfl
            have hshared := shareNode_timeShared hi hpos hmono occ hnode hbatch
              (hsign.imp id fun hall => hall a n hn)
            rw [← hid] at htaken hshared ⊢
            exact ih (Or.inl hrate) (htaken.share hn hshared hnodes) h

theorem countP_lt {p q : α → Bool} {as : List α} {a : α} (himp : ∀ x ∈ as, p x → q x)
    (ha : a ∈ as) (hq : q a = true) (hp : p a = false) : as.countP p < as.countP q := by
  induction as with
  | nil => cases ha
  | cons b bs ih =>
      have hle : bs.countP p ≤ bs.countP q :=
        List.countP_mono_left fun x hx => himp x (List.mem_cons_of_mem b hx)
      rcases List.mem_cons.mp ha with rfl | ha
      · rw [List.countP_cons_of_pos hq, List.countP_cons_of_neg (by simp [hp])]
        omega
      · have hlt := ih (fun x hx => himp x (List.mem_cons_of_mem b hx)) ha
        rw [List.countP_cons, List.countP_cons]
        have hb := himp b (List.mem_cons_self ..)
        split_ifs
        all_goals first | omega | exact absurd (hb ‹_›) ‹_›

/-- The number of candidates without the task. -/
def untaken (id : Int) (sim : SimState) (candidates : List Addr) : Nat :=
  candidates.countP fun a => (sim.node? a).elim false fun n => !checkContain id n

/-- Each turn that takes a node leaves fewer of them, so the loop ends. -/
theorem shareLoop_ends (hi : s.useInterference = false) {candidates : List Addr} {fuel : Nat}
    (hfuel : untaken r.cur.task.id r.cur.sim candidates < fuel) :
    Ends (s.shareLoop candidates fuel) r := by
  induction fuel generalizing r with
  | zero => omega
  | succ fuel ih =>
      unfold shareLoop
      refine .bind (.ask (.ok _)) fun t r1 ht => ?_
      obtain ⟨b, -, hr1⟩ := Prog.ask_ok ht
      obtain rfl : r1 = r := congrArg Prod.snd hr1
      split
      case isTrue => exact .pure _
      case isFalse =>
        refine .bind (shareFirst_ends hi candidates) fun found r2 hfirst => ?_
        cases found with
        | false => exact .pure _
        | true =>
            refine ih (lt_of_lt_of_le ?_ (Nat.lt_succ_iff.mp hfuel))
            obtain ⟨a, n, batch, duty, occ, ha, hn, hnode, hbatch, hnodes, hid, -⟩ :=
              (shareFirst_step hfirst).2 rfl
            obtain ⟨latency, others, hshares, -⟩ := shareNode_tested hnode hbatch
            have hin : checkContain r1.cur.task.id (sharedNode r1.cur.task n batch duty occ) = true :=
              checkContain_iff.mpr (by simp [sharedNode, createNewTask])
            rw [untaken, untaken, hid]
            refine countP_lt (fun b _ hb => ?_) ha ?_ ?_
            · rw [hnodes b] at hb
              split at hb
              case isTrue => simp [hin] at hb
              case isFalse => exact hb
            · simp [hn, hshares.absent]
            · simp [hnodes a, hin]

/-- `allocateTimeShare` ends, and when it returns every node is as it was or has
the task added to it once and is feasible, unless request rate and duty cycle
are both negative. -/
theorem allocateTimeShare_feasible (hi : s.useInterference = false) (hpos : PositiveLatency s)
    (hmono : BatchMonotone s) (hsign : Signed s r.cur) (tsNodes : List Addr) :
    s.allocateTimeShare tsNodes r ≠ .error .diverges ∧
      ∀ ret r', s.allocateTimeShare tsNodes r = .ok (ret, r') →
        Taken s r.cur.task.id r.cur.sim r'.cur.sim := by
  constructor
  · suffices hends : Ends (s.allocateTimeShare tsNodes) r from hends.ends
    unfold allocateTimeShare
    refine .bind (.ask (.ok _)) fun t r1 ht => .bind (.ask (.ok _)) fun sim r2 hsim =>
      .bind (.ask (shareCandidates_ends ..)) fun candidates r3 _ => ?_
    exact shareLoop_ends hi (Nat.lt_succ_of_le List.countP_le_length)
  · intro ret r' h
    unfold allocateTimeShare at h
    replace h := getTask_bind h
    replace h := getSim_bind h
    obtain ⟨candidates, -, h⟩ := query_bind h
    exact shareLoop_taken hi hpos hmono hsign (fun _ => Or.inl rfl) h

/-- One GPU on which a task is to join others. -/
def joining (others : List Task) (duty occupancy : ℚ) (task : Task) : Rec Core Action :=
  ⟨{ Core.init ⟨[{ GPUID := 0, totalMemory := 11000, usedMemory := 1280, TYPE := "gpu"
                   vLoadedParts := [⟨100, 0⟩]
                   vNodeList := [{ makeEmptyNode 0 100 "gpu" with
                     vTaskList := others, dutyCycle := some duty, occupancy }] }], []⟩
      with task }, []⟩

/-- Model 0 joins model 1, each with 20 requests per second. -/
theorem allocateTimeShare_feasible_at :
    ∃ ret r', (plain (profile [100] fun _ _ => 5) [100] 1).allocateTimeShare []
        (joining [createNewTask 1 20 100 1 20] 50 (1 / 10) (request 0 20 100)) = .ok (ret, r') ∧
      Taken (plain (profile [100] fun _ _ => 5) [100] 1) 0
        (joining [createNewTask 1 20 100 1 20] 50 (1 / 10) (request 0 20 100)).cur.sim r'.cur.sim ∧
      r'.cur.sim.nodes.map (·.vTaskList.length) = [2] := by
  obtain ⟨⟨ret, r'⟩, hrun, hp⟩ := Query.of_returns
    (p := fun x => decide (x.2.cur.sim.nodes.map (·.vTaskList.length) = [2]))
    (q := (plain (profile [100] fun _ _ => 5) [100] 1).allocateTimeShare []
      (joining [createNewTask 1 20 100 1 20] 50 (1 / 10) (request 0 20 100))) (by decide +kernel)
  exact ⟨ret, r', hrun, (allocateTimeShare_feasible rfl (plain_positive (by norm_num))
    plain_monotone (Or.inl (by decide)) []).2 ret r' hrun, of_decide_eq_true hp⟩

/-- With -1000 requests per second and a duty cycle of -10 ms the new duty cycle
is -10 ms as well. -/
theorem allocateTimeShare_negative :
    PositiveLatency (plain (profile [100] fun _ _ => 5) [100] 1) ∧
      BatchMonotone (plain (profile [100] fun _ _ => 5) [100] 1) ∧
      ∃ ret r', (plain (profile [100] fun _ _ => 5) [100] 1).allocateTimeShare []
          (joining [] (-10) 0 { request 0 (-1000) 100 with additionalRate := 2000 }) =
          .ok (ret, r') ∧
        ¬ Taken (plain (profile [100] fun _ _ => 5) [100] 1) 0
          (joining [] (-10) 0 { request 0 (-1000) 100 with additionalRate := 2000 }).cur.sim
          r'.cur.sim := by
  have hpos : PositiveLatency (plain (profile [100] fun _ _ => 5) [100] 1) :=
    plain_positive (by norm_num)
  obtain ⟨⟨ret, r'⟩, hrun, hp⟩ := Query.of_returns
    (p := fun x => decide ((x.2.cur.sim.node? ⟨0, 0⟩).map (fun n => (n.vTaskList.length, n.dutyCycle)) =
      some (1, some (-10))))
    (q := (plain (profile [100] fun _ _ => 5) [100] 1).allocateTimeShare []
      (joining [] (-10) 0 { request 0 (-1000) 100 with additionalRate := 2000 })) (by decide +kernel)
  obtain ⟨n, hn, hpair⟩ := Option.map_eq_some_iff.mp (of_decide_eq_true hp)
  obtain ⟨hlen, hduty⟩ := Prod.mk.inj hpair
  refine ⟨hpos, plain_monotone, ret, r', hrun, fun htaken => ?_⟩
  rcases htaken ⟨0, 0⟩ with hsame | ⟨m, m', -, hm', hshared⟩
  · have hold := Option.some.inj (hn.symm.trans hsame)
    rw [hold] at hlen
    cases hlen
  · obtain rfl := Option.some.inj (hn.symm.trans hm')
    obtain ⟨duty, sum, hd, -, hsum, hle, -⟩ := hshared.feasible
    have hnonneg := tasksLatency_nonneg hpos hsum
    obtain rfl := Option.some.inj (hduty.symm.trans hd)
    linarith

end Scheduler

end Glet
