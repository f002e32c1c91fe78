import Glet.Served
import Glet.Threshold

/-!
# Initial scheduling

`oneshotScheduling` of the global scheduler sets up one task for each model
and calls `runScheduling` with one GPU, then with two, until a call succeeds.
All calls share one task vector. `incrementalScehduling` sorts that vector
and, when it tries tasks again, replaces it by the tasks that fell short; a
call that fails in a later pass hands the shorter vector to the next one.
-/

namespace Glet

open Recorder Scheduler

/-! ## The global scheduler -/

/-- The spelling of a model in `_IDtoModelName`. -/
def Model.name : Model → String
  | lenet1 => "lenet1"
  | lenet2 => "lenet2"
  | lenet3 => "lenet3"
  | lenet4 => "lenet4"
  | lenet5 => "lenet5"
  | lenet6 => "lenet6"
  | googlenet => "googlenet"
  | resnet50 => "resnet50"
  | ssdMobilenetv1 => "ssd-mobilenetv1"
  | vgg16 => "vgg16"
  | mnasnet1_0 => "mnasnet1_0"
  | mobilenet_v2 => "mobilenet_v2"
  | densenet161 => "densenet161"
  | bert => "bert"

/-- `getModelID`. A name that is not in the table runs the loop to its end and
gets the last id. -/
def getModelID (name : String) : Int :=
  match idToModelName.findIdx? fun m => m.name == name with
  | some i => i
  | none => idToModelName.length - 1

/-- The members of the global scheduler and of its `SysMonitor` that initial
scheduling reads. The names are distinct: `addtoNetNames` and the loop that
makes a queue for each name both skip a name they have seen. -/
structure GlobalScheduler where
  sbpScheduler : Scheduler
  netNames : List String
  netNames_nodup : netNames.Nodup
  perTaskArivRate : String → ℚ
  perTaskTgtRate : String → Option ℚ
  perModelSLO : String → Int
  nGPUs : Int
  prevState : SimState
  currState : SimState

/-- What `oneshotScheduling` leaves behind, with the outcome of every call of
`runScheduling`. -/
structure Oneshot where
  ret : Ret
  currState : SimState
  attempts : List Outcome

/-- `flushandUpdateDevs`. -/
def Scheduler.flushandUpdateDevs (s : Scheduler) (input : SimState) (n : Int) : Query SimState := do
  assert (n ≠ 0)
  s.initDevMems (s.initiateDevs input n)

/-- One turn of the loop of `oneshotScheduling`: `runScheduling` with `n` GPUs
set up anew. -/
def Scheduler.attempt (s : Scheduler) (n : Int) (table : SatTable) (tasks : List Task)
    (prev curr : SimState) : Query Outcome := do
  let prev ← (s.setMaxGPUs n).flushandUpdateDevs prev n
  (s.setMaxGPUs n).runScheduling table tasks prev curr true

/-- The loop of `oneshotScheduling` from `n` GPUs on, when the system has `left`
more than that. -/
def Scheduler.oneshotFrom (s : Scheduler) : Nat → Int → SatTable → List Task → SimState →
    SimState → Query Oneshot
  | 0, n, table, tasks, prev, curr => do
      let o ← s.attempt n table tasks prev curr
      return ⟨o.ret, o.out, [o]⟩
  | left + 1, n, table, tasks, prev, curr => do
      let o ← s.attempt n table tasks prev curr
      match o.ret with
      | .success => return ⟨.success, o.out, [o]⟩
      | .failure => do
          let res ← s.oneshotFrom left (n + 1) o.table o.tasks o.prev o.out
          return { res with attempts := o :: res.attempts }

namespace GlobalScheduler

/-- `setupAllTasks`. -/
def setupAllTasks (g : GlobalScheduler) : List Task :=
  (g.netNames.filter fun name =>
    !(g.perTaskArivRate name == 0 && (g.perTaskTgtRate name).isNone) &&
      !((g.perTaskTgtRate name).getD 0 == 0)).map fun name =>
    createNewTask (getModelID name) (toInt ((g.perTaskTgtRate name).getD 0)) (g.perModelSLO name) 0 0

def oneshotScheduling (g : GlobalScheduler) (table : SatTable) : Query Oneshot := do
  assert (1 ≤ g.nGPUs)
  g.sbpScheduler.oneshotFrom (g.nGPUs - 1).toNat 1 table g.setupAllTasks g.prevState g.currState

/-- Models of the table have ids of their own. -/
theorem getModelID_name (m : Model) : idToModelName[(getModelID m.name).toNat]? = some m := by
  cases m <;> decide

theorem setupAllTasks_nodup {g : GlobalScheduler}
    (hknown : ∀ name ∈ g.netNames, ∃ m : Model, m.name = name) :
    (g.setupAllTasks.map (·.id)).Nodup := by
  have hids : g.setupAllTasks.map (·.id) = (g.netNames.filter fun name =>
      !(g.perTaskArivRate name == 0 && (g.perTaskTgtRate name).isNone) &&
        !((g.perTaskTgtRate name).getD 0 == 0)).map getModelID := by
    rw [setupAllTasks, List.map_map]
    rfl
  rw [hids]
  refine List.Nodup.map_on ?_ (g.netNames_nodup.filter _)
  intro x hx y hy hxy
  obtain ⟨a, rfl⟩ := hknown x (List.mem_filter.mp hx).1
  obtain ⟨b, rfl⟩ := hknown y (List.mem_filter.mp hy).1
  have hab := getModelID_name a
  rw [hxy, getModelID_name b] at hab
  rw [Option.some.inj hab]

end GlobalScheduler

variable {s : Scheduler} {table table' : SatTable} {r r' : Rec Core Action}

/-! ## The task vector of a failed call -/

/-- One turn of the retry loop of a call that fails. -/
theorem passLoop_failed {fuel : Nat} {flagged : List Int} {session tasks : List Task}
    (h : s.passLoop fuel table flagged session r = .ok ((.failure, tasks, table'), r')) :
    ∃ k ret1 table1 r1, fuel = k + 1 ∧
      s.elasticPartitioning table session r =
        .ok ((ret1, s.stdSort.sort cmpTaskDsc session, table1), r1) ∧
      ((tasks = s.stdSort.sort cmpTaskDsc session ∧ r' = r1) ∨ ∃ flagged' again,
        again = ((s.stdSort.sort cmpTaskDsc session).filter (fallsShort session r1.cur.sim)).map
          (fun t => createNewTask t.id (orgRate session t.id) t.SLO 0 0) ∧
        s.passLoop k table1 flagged' again r1 = .ok ((.failure, tasks, table'), r')) := by
  obtain ⟨k, ret₁, sorted, table₁, r₁, rfl, hpass, hend⟩ := passLoop_cases h
  obtain ⟨rfl, -⟩ := elasticPartitioning_inv hpass
  refine ⟨k, ret₁, table₁, r₁, rfl, hpass, ?_⟩
  cases hend with
  | failed => exact Or.inl ⟨rfl, rfl⟩
  | twice => exact Or.inl ⟨rfl, rfl⟩
  | retry _ hretry hnext => exact Or.inr ⟨_, _, retryTasks_eq hretry, hnext⟩

/-- A model is in the session of a pass; other actions are no passes. -/
def Action.passes (id : Int) : Action → Bool
  | pass ids => decide (id ∈ ids)
  | _ => true

/-- A task vector with distinct ids that has one rate for a model, if any. -/
def Rated (tasks : List Task) (id rate : Int) : Prop :=
  (tasks.map (·.id)).Nodup ∧ ∀ t ∈ tasks, t.id = id → t.requestRate = rate

theorem Rated.perm {tasks tasks' : List Task} {id rate : Int} (h : Rated tasks id rate)
    (hperm : tasks'.Perm tasks) : Rated tasks' id rate :=
  ⟨(hperm.map (·.id)).nodup_iff.mpr h.1, fun t ht => h.2 t (hperm.mem_iff.mp ht)⟩

/-- The tasks tried again come with the rates they had. -/
theorem Rated.again {session again : List Task} {sim : SimState} {id rate : Int}
    (h : Rated session id rate)
    (hagain : again = ((s.stdSort.sort cmpTaskDsc session).filter (fallsShort session sim)).map
      (fun t => createNewTask t.id (orgRate session t.id) t.SLO 0 0)) : Rated again id rate := by
  have hsorted := h.perm (sorted_perm (s := s) session)
  refine ⟨?_, ?_⟩
  · rw [again_ids_subset hagain]
    exact hsorted.1.sublist (List.filter_sublist.map _)
  · intro t ht hid
    rw [hagain] at ht
    obtain ⟨u, hu, rfl⟩ := List.mem_map.mp ht
    have hsess := (sorted_perm (s := s) session).mem_iff.mp (List.mem_filter.mp hu).1
    simp only [createNewTask] at hid ⊢
    rw [orgRate_eq h.1 hsess]
    exact h.2 u hsess hid

/-- A pass is recorded with its session. -/
theorem elasticPartitioning_logs {session sorted : List Task} {ret : Ret} (htab : Built s table)
    (hset : Settled s r.cur)
    (h : s.elasticPartitioning table session r = .ok ((ret, sorted, table'), r')) :
    (r.cur, .pass (sorted.map (·.id))) ∈ r'.log := by
  obtain ⟨rfl, hplace⟩ := elasticPartitioning_inv h
  have hset0 : Settled s
      (s.did (.pass ((s.stdSort.sort cmpTaskDsc session).map (·.id))) r).cur :=
    ⟨hset.pending, hset.unchecked, hset.uncharged⟩
  refine (placeTasks_ok htab hset0 hplace).1.log_subset _ ?_
  simp [did, Prog.after]

/-- If every pass of a call that fails has the model in its session, the vector
still holds it afterwards. -/
theorem passLoop_holds {fuel : Nat} {flagged : List Int} {session tasks : List Task}
    {id rate : Int} (htab : Built s table) (hset : Settled s r.cur)
    (h : s.passLoop fuel table flagged session r = .ok ((.failure, tasks, table'), r'))
    (hrated : Rated session id rate) (hpasses : ∀ p ∈ r'.log, p.2.passes id = true) :
    Rated tasks id rate ∧ id ∈ tasks.map (·.id) := by
  induction fuel using Nat.strong_induction_on generalizing table flagged session r with
  | h fuel ih =>
      obtain ⟨k, ret1, table1, r1, rfl, hpass, hend⟩ := passLoop_failed h
      rcases hend with ⟨rfl, rfl⟩ | ⟨flagged', again, hagain, hnext⟩
      · have hmem := hpasses _ (elasticPartitioning_logs htab hset hpass)
        exact ⟨hrated.perm (sorted_perm session), of_decide_eq_true hmem⟩
      · obtain ⟨-, hset1, htab1, -⟩ := elasticPartitioning_ok htab hset hpass
        exact ih k (Nat.lt_succ_self k) htab1 hset1 hnext (hrated.again hagain)

/-- The same for a call of `runScheduling`. -/
theorem runScheduling_holds {tasks : List Task} {prev out : SimState} {repart : Bool} {o : Outcome}
    {id rate : Int} (htab : Built s table)
    (h : s.runScheduling table tasks prev out repart = .ok o) (hret : o.ret = .failure)
    (hrated : Rated tasks id rate) (hpasses : ∀ p ∈ o.log, p.2.passes id = true) :
    Rated o.tasks id rate ∧ id ∈ o.tasks.map (·.id) := by
  obtain ⟨ret, tasks', table', r1, hinc, hend⟩ := runScheduling_cases h
  rcases hend with ⟨rfl, rfl⟩ | ⟨-, r', -, rfl⟩
  · obtain ⟨r0, hset0, -, hloop⟩ := incrementalScehduling_inv (init_settled prev) hinc
    exact passLoop_holds (built_withRepart.mpr htab) hset0 hloop hrated hpasses
  · cases hret

/-! ## The call that succeeds -/

/-- With interference on, the test after the last pass finds throughput for
every model of the session. -/
theorem run_hosts_on {tasks : List Task} {prev out : SimState} {repart : Bool} {o : Outcome}
    (hi : s.useInterference = true) (htab : Built s table) (hnodup : (tasks.map (·.id)).Nodup)
    (h : s.runScheduling table tasks prev out repart = .ok o) (hret : o.ret = .success) {t : Task}
    (ht : t ∈ tasks) (hrate : trpSlack < t.requestRate) : hosted t.id o.out := by
  obtain ⟨ret, tasks', table', r1, hinc, hend⟩ := runScheduling_cases h
  rcases hend with ⟨-, rfl⟩ | ⟨rfl, _, rfl, rfl⟩
  · cases hret
  · rw [hosted_copy, hosted_iff, (markLoaded_runs r1 []).count_eq (by simp), ← hosted_iff]
    obtain ⟨r0, hset0, -, hloop⟩ := incrementalScehduling_inv (init_settled prev) hinc
    refine passLoop_each (Q := fun id rate sim => trpSlack < rate → hosted id sim)
      (s := s.withRepart repart) hi ?_ ?_ (built_withRepart.mpr htab) hset0 hnodup hloop t ht hrate
    · -- a model that no node hosts has no throughput
      intro id rate sim hle hlt
      by_contra hnot
      have hzero : throughputOf id sim = 0 := by
        rw [throughputOf_eq]
        exact SimState.total_not_hosted Task.throughput hnot
      rw [hzero] at hle
      have hpos : (0 : ℚ) < rate := by
        have : (0 : Int) < rate := lt_trans (by decide) hlt
        exact_mod_cast this
      linarith
    · intro id rate fuel table flagged session r htab hset hnext hid hQ hlt
      have hruns := (passLoop_ok htab hset (fun t ht => List.mem_map_of_mem ht) hnext).1
      rw [hosted_iff, hruns.count_eq hid, ← hosted_iff]
      exact hQ hlt

/-! ## All attempts -/

/-- What is asked of a call of `runScheduling`: if it fails, the model was in
the session of each of its passes; if it succeeds with interference off,
`mergeResidue` found a node for what it cleared. -/
def Outcome.keepsModel (intf : Bool) (id : Int) (o : Outcome) : Bool :=
  match o.ret with
  | .failure => o.log.all fun p => p.2.passes id
  | .success => intf || o.log.all fun p => !p.2.isUnplaced

theorem flushandUpdateDevs_fresh {input sim : SimState} {n : Int}
    (h : s.flushandUpdateDevs input n = .ok sim) : Fresh s sim := by
  simp only [flushandUpdateDevs, Query.bind_ok] at h
  obtain ⟨-, -, h⟩ := h
  exact ⟨input, n, h⟩

/-- The call that succeeds hosts what its task vector holds. -/
theorem run_hosts {tasks : List Task} {prev out : SimState} {repart : Bool} {o : Outcome} {t : Task}
    (htab : Built s table) (hfresh : Fresh s prev) (hnodup : (tasks.map (·.id)).Nodup)
    (h : s.runScheduling table tasks prev out repart = .ok o) (hret : o.ret = .success)
    (hkeep : o.keepsModel s.useInterference t.id = true) (ht : t ∈ tasks)
    (hrate : trpSlack < t.requestRate) : hosted t.id o.out := by
  cases hi : s.useInterference with
  | true => exact run_hosts_on hi htab hnodup h hret ht hrate
  | false =>
      refine run_hosts_off hi htab hfresh hnodup h hret ?_ ht hrate
      simp only [Outcome.keepsModel, hret, hi, Bool.false_or] at hkeep
      intro p hp
      simpa using List.all_eq_true.mp hkeep p hp

theorem attempt_inv {n : Int} {tasks : List Task} {prev curr : SimState} {o : Outcome}
    (h : s.attempt n table tasks prev curr = .ok o) :
    ∃ sim, Fresh (s.setMaxGPUs n) sim ∧
      (s.setMaxGPUs n).runScheduling table tasks sim curr true = .ok o := by
  simp only [attempt, Query.bind_ok] at h
  obtain ⟨sim, hflush, hrun⟩ := h
  exact ⟨sim, flushandUpdateDevs_fresh hflush, hrun⟩

/-- The last attempt hosts what its vector holds. -/
theorem attempt_hosts {n : Int} {tasks : List Task} {prev curr : SimState} {o : Outcome}
    {id rate : Int} (htab : Built s table) (h : s.attempt n table tasks prev curr = .ok o)
    (hret : o.ret = .success) (hkeep : o.keepsModel s.useInterference id = true)
    (hrated : Rated tasks id rate) (hmem : id ∈ tasks.map (·.id)) (hrate : trpSlack < rate) :
    hosted id o.out := by
  obtain ⟨sim, hfresh, hrun⟩ := attempt_inv h
  obtain ⟨t, ht, rfl⟩ := List.mem_map.mp hmem
  refine run_hosts (built_setMaxGPUs.mpr htab) hfresh hrated.1 hrun hret hkeep ht ?_
  rwa [hrated.2 t ht rfl]

/-- An attempt that fails hands the vector on with the model in it. -/
theorem attempt_holds {n : Int} {tasks : List Task} {prev curr : SimState} {o : Outcome}
    {intf : Bool} {id rate : Int} (htab : Built s table)
    (h : s.attempt n table tasks prev curr = .ok o) (hret : o.ret = .failure)
    (hkeep : o.keepsModel intf id = true) (hrated : Rated tasks id rate) :
    Built s o.table ∧ Rated o.tasks id rate ∧ id ∈ o.tasks.map (·.id) := by
  obtain ⟨sim, -, hrun⟩ := attempt_inv h
  have htab' := built_setMaxGPUs.mp (runScheduling_ok (built_setMaxGPUs.mpr htab) hrun).1
  simp only [Outcome.keepsModel, hret] at hkeep
  exact ⟨htab', runScheduling_holds (built_setMaxGPUs.mpr htab) hrun hret hrated
    (List.all_eq_true.mp hkeep)⟩

theorem oneshotFrom_hosts {left : Nat} {n : Int} {tasks : List Task} {prev curr : SimState}
    {res : Oneshot} {id rate : Int} (htab : Built s table)
    (h : s.oneshotFrom left n table tasks prev curr = .ok res) (hret : res.ret = .success)
    (hkeep : ∀ o ∈ res.attempts, o.keepsModel s.useInterference id = true)
    (hrated : Rated tasks id rate) (hmem : id ∈ tasks.map (·.id)) (hrate : trpSlack < rate) :
    hosted id res.currState := by
  induction left generalizing n table tasks prev curr res with
  | zero =>
      simp only [oneshotFrom, Query.bind_ok] at h
      obtain ⟨o, hatt, h⟩ := h
      obtain rfl := Query.pure_ok.mp h
      exact attempt_hosts htab hatt hret (hkeep o (by simp)) hrated hmem hrate
  | succ left ih =>
      simp only [oneshotFrom, Query.bind_ok] at h
      obtain ⟨o, hatt, h⟩ := h
      cases horet : o.ret with
      | success =>
          rw [horet] at h
          obtain rfl := Query.pure_ok.mp h
          exact attempt_hosts htab hatt horet (hkeep o (by simp)) hrated hmem hrate
      | failure =>
          rw [horet] at h
          obtain ⟨res', hrest, h⟩ := Query.bind_ok.mp h
          obtain rfl := Query.pure_ok.mp h
          obtain ⟨htab', hrated', hmem'⟩ :=
            attempt_holds htab hatt horet (hkeep o (List.mem_cons_self ..)) hrated
          have hhost : hosted id res'.currState := ih htab' hrest hret
            (fun o' ho' => hkeep o' (List.mem_cons_of_mem _ ho')) hrated' hmem'
          exact hhost

/-- **Initial scheduling.** If `oneshotScheduling` succeeds, a model of the
task vector with more than TRP_SLACK requests per second is hosted, provided
that no failed call dropped it from the vector and that, with interference
off, the last call placed what `mergeResidue` cleared. -/
theorem initial_scheduling_hosts {g : GlobalScheduler} {res : Oneshot}
    (hknown : ∀ name ∈ g.netNames, ∃ m : Model, m.name = name)
    (htab : Built g.sbpScheduler table) (h : g.oneshotScheduling table = .ok res)
    (hret : res.ret = .success)
    (hkeep : ∀ t ∈ g.setupAllTasks, trpSlack < t.requestRate →
      ∀ o ∈ res.attempts, o.keepsModel g.sbpScheduler.useInterference t.id = true) :
    ∀ t ∈ g.setupAllTasks, trpSlack < t.requestRate → hosted t.id res.currState := by
  intro t ht hrate
  simp only [GlobalScheduler.oneshotScheduling, Query.bind_ok] at h
  obtain ⟨-, -, h⟩ := h
  have hnodup := GlobalScheduler.setupAllTasks_nodup hknown
  refine oneshotFrom_hosts htab h hret (hkeep t ht hrate) ⟨hnodup, ?_⟩ (List.mem_map_of_mem ht) hrate
  intro u hu hid
  rw [List.inj_on_of_nodup_map hnodup hu ht hid]

/-- A global scheduler that is to serve two models, lenet1 and lenet2. -/
def GlobalScheduler.pair (s : Scheduler) (rate SLO rate' SLO' : Int) : GlobalScheduler where
  sbpScheduler := s
  netNames := [Model.lenet1.name, Model.lenet2.name]
  netNames_nodup := by decide
  perTaskArivRate := fun _ => 0
  perTaskTgtRate := fun name => if name = Model.lenet1.name then some rate else some rate'
  perModelSLO := fun name => if name = Model.lenet1.name then SLO else SLO'
  nGPUs := s.numMaxGPU
  prevState := ⟨[], []⟩
  currState := ⟨[], []⟩

theorem GlobalScheduler.pair_known {s : Scheduler} {rate SLO rate' SLO' : Int} :
    ∀ name ∈ (pair s rate SLO rate' SLO').netNames, ∃ m : Model, m.name = name := by
  intro name hname
  simp only [pair, List.mem_cons, List.not_mem_nil, or_false] at hname
  rcases hname with rfl | rfl
  · exact ⟨.lenet1, rfl⟩
  · exact ⟨.lenet2, rfl⟩

/-- One GPU is not enough for 400 requests per second of each model, two are. -/
theorem initial_scheduling_second_attempt :
    ∃ res, (GlobalScheduler.pair (interfering 5 2) 400 30 400 30).oneshotScheduling
        (fun _ => none) = .ok res ∧ res.ret = .success ∧ res.attempts.length = 2 ∧
      hosted 0 res.currState ∧ hosted 1 res.currState := by
  obtain ⟨res, hrun, hp⟩ := Query.of_returns
    (q := (GlobalScheduler.pair (interfering 5 2) 400 30 400 30).oneshotScheduling fun _ => none)
    (p := fun res => decide (res.ret = .success ∧ res.attempts.length = 2 ∧
      ∀ o ∈ res.attempts, o.keepsModel true 0 = true ∧ o.keepsModel true 1 = true))
    (by decide +kernel)
  obtain ⟨hret, hlen, hkeep⟩ := of_decide_eq_true hp
  have htasks : (GlobalScheduler.pair (interfering 5 2) 400 30 400 30).setupAllTasks =
      [request 0 400 30, request 1 400 30] := by decide
  have hall := initial_scheduling_hosts GlobalScheduler.pair_known .empty hrun hret (by
    intro t ht _ o ho
    rw [htasks] at ht
    simp only [List.mem_cons, List.not_mem_nil, or_false] at ht
    rcases ht with rfl | rfl
    · exact (hkeep o ho).1
    · exact (hkeep o ho).2)
  rw [htasks] at hall
  exact ⟨res, hrun, hret, hlen, hall (request 0 400 30) (by simp) (by decide),
    hall (request 1 400 30) (by simp) (by decide)⟩

/-- The attempt with one GPU fails in a pass for lenet1 alone. The attempt with
two GPUs then schedules only lenet1, and initial scheduling succeeds without
lenet2. -/
theorem initial_scheduling_drops_model :
    ∃ res, (GlobalScheduler.pair (interfering 5 2) 150 20 100 40).oneshotScheduling
        (fun _ => none) = .ok res ∧ res.ret = .success ∧
      ∃ t ∈ (GlobalScheduler.pair (interfering 5 2) 150 20 100 40).setupAllTasks,
        trpSlack < t.requestRate ∧ ¬ hosted t.id res.currState := by
  obtain ⟨res, hrun, hp⟩ := Query.of_returns
    (q := (GlobalScheduler.pair (interfering 5 2) 150 20 100 40).oneshotScheduling fun _ => none)
    (p := fun res => decide (res.ret = .success ∧
      isModelScheduled (request 1 100 40) res.currState = false)) (by decide +kernel)
  obtain ⟨hret, hnot⟩ := of_decide_eq_true hp
  refine ⟨res, hrun, hret, request 1 100 40, by decide, by decide, fun hhost => ?_⟩
  rw [isModelScheduled_iff.mpr hhost] at hnot
  cases hnot

end Glet
