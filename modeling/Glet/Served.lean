import Glet.Coverage

/-!
# Serving a whole session

With interference off a session is scheduled in one pass, task by task. What
the account of `Coverage` gives for a task when it is done has to survive the
tasks that follow: time sharing can lower the throughput of its entries, but
it removes none of them.

Two results come out of this: in runs whose time sharing lowers nobody, the
throughput of every model is its request rate up to TRP_SLACK and one unit per
node; and every model with a rate above TRP_SLACK is hosted.
-/

namespace Glet

open Recorder Scheduler

variable {s : Scheduler} {table table' : SatTable} {r r' : Rec Core Action} {many : Prop}

/-! ## One task -/

/-- `mergeResidue` finds a node for what it cleared, and `many` if that was
more than 16 residue gpu-lets. -/
def Placed (many : Prop) (act : Action) : Prop :=
  act ≠ .unplaced ∧ ∀ rate count, act = .gather rate count → 16 < count → many

/-- What the account says of a task that is done. -/
def Served (many : Prop) (t : Task) (sim : SimState) : Prop :=
  t.requestRate ≤ trpSlack + sim.total (cover t.id) ∨ (many ∧ hosted t.id sim)

theorem addModeltoSchedule_served {t : Task} (hi : s.useInterference = false)
    (htab : TableOK s table) (hset : Settled s r.cur) (hnew : ¬ hosted t.id r.cur.sim)
    (h : s.addModeltoSchedule table t r = .ok (.success, r'))
    (hplaced : ∀ p ∈ r'.log, Placed many p.2) : Served many t r'.cur.sim := by
  obtain ⟨r1, -, hplan, hfirst, hset', hid', hphase', hrate'⟩ := addModeltoSchedule_ok htab hset h
  have hsched : isModelScheduled t r.cur.sim = false := by
    rw [Bool.eq_false_iff]
    exact fun hyes => hnew (isModelScheduled_iff.mp hyes)
  obtain rfl := hfirst hsched
  have hstart : Covers t.requestRate many (s.did (.start t) r).cur := by
    rw [covers_placing rfl]
    have hpending : pendingCover (s.did (.start t) r).cur = 0 := by
      unfold pendingCover
      rw [show (s.did (.start t) r).cur.pending = none from hset.pending]
    rw [hpending]
    refine ⟨?_, rfl⟩
    have hzero : r.cur.sim.total (cover t.id) = 0 := SimState.total_not_hosted weight hnew
    change t.requestRate ≤ t.requestRate + r.cur.sim.total (cover t.id) - 0
    omega
  have hend : Covers t.requestRate many r'.cur := by
    refine Moves.invariant (C := fun _ act => Placed many act) ?_ hplan hplaced hstart
    intro c act hc hg hP
    exact hc.apply hi hg.1 hg.2 hP.1 hP.2
  unfold Covers at hend
  rw [hid'] at hend
  rcases hphase' with hp | hp
  · rw [hp] at hend
    have hpending : pendingCover r'.cur = 0 := by
      unfold pendingCover
      rw [hset'.pending]
    have hle := hrate' rfl
    refine Or.inl ?_
    dsimp only at hend
    omega
  · rw [hp] at hend
    exact hend

/-! ## A pass over the session -/

/-- Every task of a session ends up with a property `Q` that a served task has
and that scheduling other tasks keeps. `C` is what is asked of the actions. -/
theorem placeTasks_each {Q : Task → SimState → Prop} {C : Core → Action → Prop}
    (hi : s.useInterference = false) (hC : ∀ c act, C c act → Placed many act)
    (hserved : ∀ t sim, Served many t sim → Q t sim)
    (hother : ∀ {t : Task} {ids : List Int} {K : Action → Prop} {r r' : Rec Core Action},
      Runs s ids K r r' → (∀ p ∈ r'.log, C p.1 p.2) → t.id ∉ ids → Q t r.cur.sim → Q t r'.cur.sim)
    {ts : List Task} (htab : Built s table) (hset : Settled s r.cur)
    (hnodup : (ts.map (·.id)).Nodup) (hnew : ∀ t ∈ ts, ¬ hosted t.id r.cur.sim)
    (h : s.placeTasks table ts r = .ok ((.success, table'), r'))
    (hlog : ∀ p ∈ r'.log, C p.1 p.2) : ∀ t ∈ ts, Q t r'.cur.sim := by
  induction ts generalizing table r with
  | nil => simp
  | cons t ts ih =>
      obtain ⟨table1, ret1, r1, htab1, hadd, ⟨-, hfail, -⟩ | ⟨rfl, h⟩⟩ := placeTasks_cons htab h
      · cases hfail
      obtain ⟨hfirst, hset1⟩ := addModeltoSchedule_runs htab1.ok hset hadd
      have hrest : Runs s (ts.map (·.id)) OfPass r1 r' := (placeTasks_ok htab1 hset1 h).1
      simp only [List.map_cons, List.nodup_cons] at hnodup
      have hlog1 : ∀ p ∈ r1.log, C p.1 p.2 := fun p hp => hlog p (hrest.log_subset p hp)
      have hQ : Q t r1.cur.sim := by
        refine hserved _ _ (addModeltoSchedule_served hi htab1.ok hset
          (hnew t (List.mem_cons_self ..)) hadd fun p hp => ?_)
        exact hC _ _ (hlog1 p hp)
      have hnew1 : ∀ u ∈ ts, ¬ hosted u.id r1.cur.sim := by
        intro u hu
        have hne : u.id ∉ [t.id] := by
          rw [List.mem_singleton]
          intro heq
          exact hnodup.1 (heq ▸ List.mem_map_of_mem hu)
        rw [hosted_iff, hfirst.count_eq hne, ← hosted_iff]
        exact hnew u (List.mem_cons_of_mem _ hu)
      intro u hu
      rcases List.mem_cons.mp hu with rfl | hu
      · exact hother hrest hlog hnodup.1 hQ
      · exact ih htab1 hset1 hnodup.2 hnew1 h u hu

/-- With interference off there is one pass. -/
theorem passLoop_once {fuel : Nat} {flagged : List Int} {session tasks : List Task} {ret : Ret}
    (hi : s.useInterference = false)
    (h : s.passLoop fuel table flagged session r = .ok ((ret, tasks, table'), r')) :
    s.elasticPartitioning table session r = .ok ((ret, tasks, table'), r') := by
  obtain ⟨k, ret₁, sorted, table₁, r₁, rfl, hpass, hend⟩ := passLoop_cases h
  cases hend with
  | failed | plain => exact hpass
  | twice hon | enough hon | retry hon => cases hi.symm.trans hon

/-- The same for `incrementalScehduling` on a decision that hosts none of the
session's models. -/
theorem incrementalScehduling_each {Q : Task → SimState → Prop} {C : Core → Action → Prop}
    (hi : s.useInterference = false) (hC : ∀ c act, C c act → Placed many act)
    (hserved : ∀ t sim, Served many t sim → Q t sim)
    (hother : ∀ {t : Task} {ids : List Int} {K : Action → Prop} {r r' : Rec Core Action},
      Runs s ids K r r' → (∀ p ∈ r'.log, C p.1 p.2) → t.id ∉ ids → Q t r.cur.sim → Q t r'.cur.sim)
    {session tasks : List Task} (htab : Built s table) (hset : Settled s r.cur)
    (hnodup : (session.map (·.id)).Nodup) (hnew : ∀ t ∈ session, ¬ hosted t.id r.cur.sim)
    (h : s.incrementalScehduling table session r = .ok ((.success, tasks, table'), r'))
    (hlog : ∀ p ∈ r'.log, C p.1 p.2) : ∀ t ∈ session, Q t r'.cur.sim := by
  obtain ⟨r0, hset0, hr0, hloop⟩ := incrementalScehduling_inv hset h
  have hnew0 : ∀ t ∈ session, ¬ hosted t.id r0.cur.sim := by
    rcases hr0 with rfl | ⟨-, rfl⟩
    · exact hnew
    · exact fun t _ => not_hosted_new fun _ _ => initiateDevs_new
  obtain ⟨rfl, hplace⟩ := elasticPartitioning_inv (passLoop_once hi hloop)
  have hperm := sorted_perm (s := s) session
  have hset1 : Settled s
      (s.did (.pass ((s.stdSort.sort cmpTaskDsc session).map (·.id))) r0).cur :=
    ⟨hset0.pending, hset0.unchecked, hset0.uncharged⟩
  have hall := placeTasks_each hi hC hserved hother htab hset1
    (((hperm.map (·.id)).nodup_iff).mpr hnodup)
    (fun t ht => hnew0 t (hperm.mem_iff.mp ht)) hplace hlog
  exact fun t ht => hall t (hperm.mem_iff.mpr ht)

/-- And for `runScheduling` on a fresh decision. -/
theorem runScheduling_each {Q : Task → SimState → Prop} {C : Core → Action → Prop}
    (hi : s.useInterference = false) (hC : ∀ c act, C c act → Placed many act)
    (hserved : ∀ t sim, Served many t sim → Q t sim)
    (hother : ∀ {s' : Scheduler} {t : Task} {ids : List Int} {K : Action → Prop}
      {r r' : Rec Core Action},
      Runs s' ids K r r' → (∀ p ∈ r'.log, C p.1 p.2) → t.id ∉ ids → Q t r.cur.sim → Q t r'.cur.sim)
    {tasks : List Task} {prev out : SimState} {repart : Bool} {o : Outcome} (htab : Built s table)
    (hfresh : Fresh s prev) (hnodup : (tasks.map (·.id)).Nodup)
    (h : s.runScheduling table tasks prev out repart = .ok o) (hret : o.ret = .success)
    (hlog : ∀ p ∈ o.log, C p.1 p.2) : ∀ t ∈ tasks, Q t o.prev := by
  obtain ⟨ret, tasks', table', r1, hinc, hend⟩ := runScheduling_cases h
  rcases hend with ⟨-, rfl⟩ | ⟨rfl, _, rfl, rfl⟩
  · cases hret
  · have hlast := markLoaded_runs (s := s.withRepart repart) r1 []
    have hall := incrementalScehduling_each (s := s.withRepart repart) hi hC hserved
      (fun hruns => hother hruns) (built_withRepart.mpr htab) (init_settled prev) hnodup
      (fun t _ => not_hosted_new fun _ _ hg => (hfresh.gpu hg).1) hinc fun p hp => hlog p (hlast.log_subset p hp)
    exact fun t ht => hother hlast hlog (by simp) (hall t ht)

/-! ## Nobody is starved -/

/-- `mergeResidue` found no node for what it had cleared. -/
def Action.isUnplaced : Action → Bool
  | unplaced => true
  | _ => false

theorem placed_of_isUnplaced {act : Action} (h : act.isUnplaced = false) : Placed True act := by
  refine ⟨?_, fun _ _ _ _ => trivial⟩
  rintro rfl
  cases h

/-- A task that is served and asks for more than the slack is hosted. -/
theorem Served.hosted_or {t : Task} {sim : SimState} (h : Served many t sim) :
    t.requestRate ≤ trpSlack ∨ hosted t.id sim := by
  rcases h with h | ⟨-, h⟩
  · by_cases hhost : hosted t.id sim
    · exact Or.inr hhost
    · have hzero : sim.total (cover t.id) = 0 := SimState.total_not_hosted weight hhost
      exact Or.inl (by omega)
  · exact Or.inr h

variable {tasks : List Task} {prev out : SimState} {repart : Bool} {o : Outcome}

theorem hosted_copy {id : Int} {sim : SimState} :
    hosted id (copyToOutput s sim).2 ↔ hosted id sim := by
  rw [hosted_iff, hosted_iff, total_copy]
  exact fun rate => Node.sumOf_copy (fun _ _ => rfl) id rate

/-- Interference off: a run that places whatever `mergeResidue` clears hosts
every task with more than the slack. -/
theorem run_hosts_off (hi : s.useInterference = false) (htab : Built s table)
    (hfresh : Fresh s prev) (hnodup : (tasks.map (·.id)).Nodup)
    (h : s.runScheduling table tasks prev out repart = .ok o) (hret : o.ret = .success)
    (hplaced : ∀ p ∈ o.log, p.2.isUnplaced = false) {t : Task} (ht : t ∈ tasks)
    (hrate : trpSlack < t.requestRate) : hosted t.id o.out := by
  have hall := runScheduling_each (Q := fun t sim => t.requestRate ≤ trpSlack ∨ hosted t.id sim)
    (C := fun _ act => act.isUnplaced = false) hi
    (fun _ _ => placed_of_isUnplaced) (fun _ _ => Served.hosted_or)
    (fun hruns _ hout hQ => by
      rw [hosted_iff, hruns.count_eq hout, ← hosted_iff]
      exact hQ) htab hfresh hnodup h hret hplaced
  obtain ⟨-, r', -, -, hprev, hout, -⟩ := runScheduling_ok htab h
  rw [hout hret, ← hprev, hosted_copy]
  exact (hall t ht).resolve_left (by omega)

/-- **No starvation.** With interference off, a successful run on a fresh
decision hosts every task that asks for more than TRP_SLACK, provided that
`mergeResidue` found a node for whatever it cleared. -/
theorem no_starvation (hi : s.useInterference = false) (htab : Built s table)
    (hfresh : Fresh s prev) (hnodup : (tasks.map (·.id)).Nodup)
    (h : s.runScheduling table tasks prev out repart = .ok o) (hret : o.ret = .success)
    (hplaced : ∀ p ∈ o.log, p.2.isUnplaced = false) :
    ∀ t ∈ tasks, trpSlack < t.requestRate → hosted t.id o.out :=
  fun _ ht hrate => run_hosts_off hi htab hfresh hnodup h hret hplaced ht hrate

example : ((plain (profile [100] fun _ _ => 5) [100] 1).firstRun [request 0 100 30] true).returns
    (fun o => decide (o.ret = .success)) = true := by
  decide +kernel

/-- Two models on one GPU, the second by time sharing. -/
theorem no_starvation_shared :
    ∃ o, (plain (profile [100] fun _ _ => 5) [100] 1).firstRun
        [request 0 100 30, request 1 51 60] true = .ok o ∧ o.ret = .success ∧
      hosted 0 o.out ∧ hosted 1 o.out := by
  obtain ⟨o, hrun, hp⟩ := Query.of_returns
    (q := (plain (profile [100] fun _ _ => 5) [100] 1).firstRun
      [request 0 100 30, request 1 51 60] true)
    (p := fun o => decide (o.ret = .success ∧ ∀ q ∈ o.log, q.2.isUnplaced = false))
    (by decide +kernel)
  obtain ⟨hret, hplaced⟩ := of_decide_eq_true hp
  have hall := no_starvation rfl .empty (setUp_fresh rfl) (by decide) hrun hret hplaced
  exact ⟨o, hrun, hret, hall (request 0 100 30) (by simp) (by decide),
    hall (request 1 51 60) (by simp) (by decide)⟩

/-- Up to TRP_SLACK requests per second are not scheduled at all. -/
theorem small_rate_not_hosted :
    ∃ o, (plain (profile [100] fun _ _ => 5) [100] 1).firstRun [request 0 10 30] true = .ok o ∧
      o.ret = .success ∧ (1 : Int) ≤ (request 0 10 30).requestRate ∧ ¬ hosted 0 o.out := by
  obtain ⟨o, hrun, hp⟩ := Query.of_returns
    (q := (plain (profile [100] fun _ _ => 5) [100] 1).firstRun [request 0 10 30] true)
    (p := fun o => decide (o.ret = .success ∧ isModelScheduled (request 0 10 30) o.out = false))
    (by decide +kernel)
  obtain ⟨hret, hnot⟩ := of_decide_eq_true hp
  refine ⟨o, hrun, hret, by decide, fun hhost => ?_⟩
  rw [isModelScheduled_iff.mpr hhost] at hnot
  cases hnot

/-! ## Rates are covered -/

/-- The actions that keep the account of every task: time sharing lowers
nobody's throughput, `mergeResidue` places what it cleared, and it collects at
most 16 truncated throughputs. -/
def lossless (c : Core) (act : Action) : Bool :=
  keepsOthers (fun _ => true) c act && match act with
    | .unplaced => false
    | .gather _ count => decide (count ≤ 16)
    | _ => true

theorem placed_of_lossless {c : Core} {act : Action} (h : lossless c act = true) :
    Placed False act := by
  simp only [lossless, Bool.and_eq_true] at h
  constructor
  · rintro rfl
    cases h.2
  · rintro rate count rfl hlt
    have := of_decide_eq_true h.2
    omega

/-- What the entries cover, against throughput and hosting nodes. -/
theorem cover_le_throughput (id : Int) {ns : List Node}
    (hnodup : ∀ n ∈ ns, (n.vTaskList.map (·.id)).Nodup) :
    (((ns.map (cover id)).sum : Int) : ℚ) ≤ (ns.map (Node.sumOf Task.throughput id)).sum +
      ((ns.filter (checkContain id)).length : ℚ) := by
  induction ns with
  | nil => simp
  | cons n ns ih =>
      have hrest := ih fun m hm => hnodup m (List.mem_cons_of_mem _ hm)
      have hnode : (cover id n : ℚ) ≤ n.sumOf Task.throughput id +
          (if checkContain id n then 1 else 0 : ℚ) := by
        have hcount := List.nodup_iff_count_le_one.mp (hnodup n (List.mem_cons_self ..)) id
        have hlen : (n.entries id).length = (n.vTaskList.map (·.id)).count id := by
          have := Node.count_eq id n
          simp only [Node.count, Node.sumOf, List.map_const', List.sum_replicate] at this
          simpa using this
        have hcontain : checkContain id n = true ↔ n.entries id ≠ [] := by
          simp [checkContain, Node.entries, List.filter_eq_nil_iff]
        cases hent : n.entries id with
        | nil =>
            have hno : checkContain id n = false := by
              rw [Bool.eq_false_iff]
              exact fun hyes => hcontain.mp hyes hent
            simp [cover, Node.sumOf, hent, hno]
        | cons t ts =>
            have hyes : checkContain id n = true := hcontain.mpr (by simp [hent])
            obtain rfl : ts = [] := by
              rw [hent] at hlen
              simp only [List.length_cons] at hlen
              exact List.length_eq_zero_iff.mp (by omega)
            simp only [cover, Node.sumOf, hent, hyes, List.map_cons, List.map_nil, List.sum_cons,
              List.sum_nil, add_zero, if_true, weight]
            push_cast
            have := Int.floor_le t.throughput
            linarith
      simp only [List.map_cons, List.sum_cons, List.filter_cons, Int.cast_add]
      split
      case isTrue hyes =>
        rw [if_pos hyes] at hnode
        rw [List.length_cons, Nat.cast_add, Nat.cast_one]
        linarith
      case isFalse hno =>
        rw [if_neg hno] at hnode
        linarith

/-- No run puts a model on a node twice. -/
theorem runScheduling_nodup (htab : Built s table) (hfresh : Fresh s prev)
    (h : s.runScheduling table tasks prev out repart = .ok o) :
    Every (fun n => (n.vTaskList.map (·.id)).Nodup) o.prev := by
  obtain ⟨-, r', hruns, -, hprev, -⟩ := runScheduling_ok htab h
  have hempty : ∀ n : Node, n.vTaskList = [] → (n.vTaskList.map (·.id)).Nodup := by
    intro n hnil
    rw [hnil]
    exact List.nodup_nil
  rw [hprev]
  refine (hruns.strengthen
    (I := fun c => Every (fun n => (n.vTaskList.map (·.id)).Nodup) c.sim) ?_
    (hfresh.every hempty)).2
  rintro c act hc ⟨hg, -⟩
  exact hc.apply hempty hg.1 fun a f n hw hn => (hg.1.writes_key hw hn).2

/-- **Rate coverage.** With interference off, a successful run on a fresh
decision whose actions are all `lossless` gives every task its request rate,
up to TRP_SLACK and one unit for each node that hosts it. -/
theorem rate_coverage (hi : s.useInterference = false) (htab : Built s table)
    (hfresh : Fresh s prev) (hnodup : (tasks.map (·.id)).Nodup)
    (h : s.runScheduling table tasks prev out repart = .ok o) (hret : o.ret = .success)
    (hlossless : ∀ p ∈ o.log, lossless p.1 p.2 = true) {t : Task} (ht : t ∈ tasks) :
    (t.requestRate : ℚ) - trpSlack - ((o.out.nodes.filter (checkContain t.id)).length : ℚ) ≤
      throughputOf t.id o.out := by
  have hall := runScheduling_each
    (Q := fun t sim => t.requestRate ≤ trpSlack + sim.total (cover t.id))
    (C := fun c act => lossless c act = true) hi
    (fun _ _ => placed_of_lossless) (fun _ _ hs => hs.resolve_right fun hf => hf.1)
    (fun hruns hlog hout hQ => by
      have hmono := hruns.sumOf_le weight_mono
        (fun p hp => (Bool.and_eq_true_iff.mp (hlog p hp)).1) rfl hout
      exact le_trans hQ (Int.add_le_add_left hmono _)) htab hfresh hnodup h hret hlossless
  have hcover := hall t ht
  have hids := runScheduling_nodup htab hfresh h
  have hunique : ∀ n ∈ o.prev.nodes, (n.vTaskList.map (·.id)).Nodup := by
    intro n hn
    obtain ⟨a, ha⟩ := SimState.mem_nodes.mp hn
    exact hids a n ha
  have hle := cover_le_throughput t.id hunique
  rw [SimState.total_eq_nodes] at hcover
  obtain ⟨-, r', -, -, hprev, hout, -⟩ := runScheduling_ok htab h
  have hnodes : (o.out.nodes.filter (checkContain t.id)).length =
      (o.prev.nodes.filter (checkContain t.id)).length := by
    rw [hout hret, ← hprev, SimState.nodes_copy, List.filter_map, List.length_map]
    refine congrArg List.length (List.filter_congr fun n _ => ?_)
    simp [checkContain, SimState.copyNode, Function.comp_def]
  have hthr : throughputOf t.id o.out = (o.prev.nodes.map (Node.sumOf Task.throughput t.id)).sum := by
    rw [hout hret, ← hprev, throughputOf_eq, total_copy, SimState.total_eq_nodes]
    exact fun rate => Node.sumOf_copy (fun _ _ => rfl) t.id rate
  rw [hnodes, hthr]
  have hcast : (t.requestRate : ℚ) ≤ trpSlack + ((o.prev.nodes.map (cover t.id)).sum : Int) := by
    exact_mod_cast hcover
  linarith

/-- Two models share a GPU in a duty cycle that suits both. -/
theorem rate_coverage_shared :
    ∃ o, (plain (profile [100] fun _ _ => 5) [100] 1).firstRun
        [request 0 100 30, request 1 50 60] true = .ok o ∧ o.ret = .success ∧
      o.out.nodes.length = 1 ∧
      (100 : ℚ) - trpSlack - ((o.out.nodes.filter (checkContain 0)).length : ℚ) ≤
        throughputOf 0 o.out := by
  obtain ⟨o, hrun, hp⟩ := Query.of_returns
    (q := (plain (profile [100] fun _ _ => 5) [100] 1).firstRun
      [request 0 100 30, request 1 50 60] true)
    (p := fun o => decide (o.ret = .success ∧ o.out.nodes.length = 1 ∧
      ∀ q ∈ o.log, lossless q.1 q.2 = true)) (by decide +kernel)
  obtain ⟨hret, hlen, hlossless⟩ := of_decide_eq_true hp
  have hcovered := rate_coverage rfl .empty (setUp_fresh rfl) (by decide) hrun hret hlossless
    (t := request 0 100 30) (by simp)
  exact ⟨o, hrun, hret, hlen, by simpa [request, createNewTask] using hcovered⟩

/-- With 51 requests per second of the second model, the run still succeeds but
time sharing leaves the first one 1000 / 19 of its 100 requests per second. -/
theorem rate_not_covered :
    ∃ o, (plain (profile [100] fun _ _ => 5) [100] 1).firstRun
        [request 0 100 30, request 1 51 60] true = .ok o ∧ o.ret = .success ∧
      ¬ (((request 0 100 30).requestRate : ℚ) - trpSlack -
        ((o.out.nodes.filter (checkContain 0)).length : ℚ) ≤ throughputOf 0 o.out) := by
  obtain ⟨o, hrun, hp⟩ := Query.of_returns
    (q := (plain (profile [100] fun _ _ => 5) [100] 1).firstRun
      [request 0 100 30, request 1 51 60] true)
    (p := fun o => decide (o.ret = .success ∧
      ¬ (((request 0 100 30).requestRate : ℚ) - trpSlack -
        ((o.out.nodes.filter (checkContain 0)).length : ℚ) ≤ throughputOf 0 o.out)))
    (by decide +kernel)
  obtain ⟨hret, hlt⟩ := of_decide_eq_true hp
  exact ⟨o, hrun, hret, hlt⟩

end Glet
