import Glet.Rows
import Glet.Runs

/-!
# The calls of a run

A run that stops half way leaves no record behind, but it has made calls:
`Invokes` says which routine each routine of the scheduler calls, with which
arguments and at which record, one rule for a call site; `Visits` chains
them, and `Enters` are the calls that a call of `runScheduling` makes. The
routines listed in `Call` are those between `runScheduling` and the two
places the later modules look at: the saturation table (`getMinPartSum`,
`estimateTrp`, `getMaxReturnPart`, `mergeResidue`) and the duty cycles that
time sharing and the erasing of a task read.

- `Visits.stops`: a run stops where a call it makes stops;
- `Visits.entry`: the record a call is made at was reached by guarded
  actions, and meets what the routine relies on (`Entry`).
-/

namespace Glet

open Recorder

namespace Scheduler

/-- A routine with its arguments. -/
inductive Call where
  | incrementalScehduling (table : SatTable) (session : List Task)
  | passLoop (fuel : Nat) (table : SatTable) (flagged : List Int) (session : List Task)
  | elasticPartitioning (table : SatTable) (session : List Task)
  | placeTasks (table : SatTable) (ts : List Task)
  | addModeltoSchedule (table : SatTable) (t : Task)
  | getMinPartSum (table : SatTable) (task : Task)
  | estimate (table : SatTable) (type : DeviceType) (task : Task)
  | getMaxReturnPart (table : SatTable) (id : Int) (type : DeviceType)
  | forgetTask (as : List Addr)
  | adjustAndShare (table : SatTable) (given tsNodes : List Addr)
  | readjust (table : SatTable) (given : List Addr)
  | saturateLoop (table : SatTable) (fuel : Nat) (given : List Addr)
  | residueLoop (table : SatTable) (fuel : Nat) (given : List Addr)
  | chooseNode (table : SatTable) (given : List Addr)
  | splitGiven (table : SatTable) (a : Addr) (given : List Addr)
  | mergeResidue (table : SatTable)
  | allocateTimeShare (tsNodes : List Addr)
  | shareLoop (candidates : List Addr) (fuel : Nat)
  | shareFirst (as : List Addr)

variable (s : Scheduler)

/-- The call stops with a fault. -/
def Call.Stops (e : Fault) (r : Rec Core Action) : Call → Prop
  | incrementalScehduling table session => s.incrementalScehduling table session r = .error e
  | passLoop fuel table flagged session => s.passLoop fuel table flagged session r = .error e
  | elasticPartitioning table session => s.elasticPartitioning table session r = .error e
  | placeTasks table ts => s.placeTasks table ts r = .error e
  | addModeltoSchedule table t => s.addModeltoSchedule table t r = .error e
  | getMinPartSum table task => s.getMinPartSum table task = .error e
  | estimate table type task =>
      s.estimate table type task.id task.SLO task.requestRate = .error e
  | getMaxReturnPart table id type => s.getMaxReturnPart table id type = .error e
  | forgetTask as => s.forgetTask as r = .error e
  | adjustAndShare table given tsNodes => s.adjustAndShare table given tsNodes r = .error e
  | readjust table given => s.readjust table given r = .error e
  | saturateLoop table fuel given => s.saturateLoop table fuel given r = .error e
  | residueLoop table fuel given => s.residueLoop table fuel given r = .error e
  | chooseNode table given => s.chooseNode table r.cur.task r.cur.sim given = .error e
  | splitGiven table a given => s.splitGiven table a given r = .error e
  | mergeResidue table => s.mergeResidue table r = .error e
  | allocateTimeShare tsNodes => s.allocateTimeShare tsNodes r = .error e
  | shareLoop candidates fuel => s.shareLoop candidates fuel r = .error e
  | shareFirst as => s.shareFirst as r = .error e

/-! ## The call sites -/

/-- The device type that `readjust` asks for. -/
def chosenType (table : SatTable) (task : Task) : Query DeviceType :=
  if s.priorityCheck then .ok s.priorityType else s.getMinPartSum table task

/-- A whole GPU is split before a gpu-let goes on it. -/
abbrev Whole (node : Node) : Prop :=
  node.resourcePntg = 100 ∧ s.usePart = true ∧ s.useRepartition = true

/-- The order in which `allocateTimeShare` tries its candidates. -/
def shareOrder (sim : SimState) (candidates : List Addr) : List Addr :=
  s.stdSort.sort (fun a b =>
    match sim.node? a, sim.node? b with
    | some x, some y => decide (x.occupancy > y.occupancy)
    | _, _ => false) candidates

/-- The record in which `forgetTask` reads the duty cycle of a node that hosts
tasks. -/
def erased (a : Addr) (n : Node) (r : Rec Core Action) : Rec Core Action :=
  if checkContain r.cur.task.id n then s.did (.forget a) r else r

/-- The record in which `addModeltoSchedule` handles a task. -/
abbrev started (t : Task) (r : Rec Core Action) : Rec Core Action := s.did (.start t) r

/-- One call of one routine by another. -/
inductive Invokes : Call × Rec Core Action → Call × Rec Core Action → Prop
  | passes {table session r} : r.cur.sim.vGPUList ≠ [] →
      Invokes (.incrementalScehduling table session, r) (.passLoop 3 table [] session, r)
  | passesOnNew {table session r} : r.cur.sim.vGPUList = [] →
      Invokes (.incrementalScehduling table session, r) (.passLoop 3 table [] session,
        s.did (.initDevs (s.initiateDevs r.cur.sim s.numMaxGPU).vGPUList) r)
  | pass {fuel table flagged session r} :
      Invokes (.passLoop (fuel + 1) table flagged session, r)
        (.elasticPartitioning table session, r)
  | passAgain {fuel table flagged session r sorted table' r' t again} :
      s.elasticPartitioning table session r = .ok ((.success, sorted, table'), r') →
      s.useInterference = true →
      retryTasks (fallsShort session r'.cur.sim) (orgRate session) flagged sorted =
        some (t :: again) →
      Invokes (.passLoop (fuel + 1) table flagged session, r)
        (.passLoop fuel table' ((t :: again).map (·.id) ++ flagged) (t :: again), r')
  | place {table session r} :
      Invokes (.elasticPartitioning table session, r)
        (.placeTasks table (s.stdSort.sort cmpTaskDsc session),
          s.did (.pass ((s.stdSort.sort cmpTaskDsc session).map (·.id))) r)
  | add {table t ts r table'} : s.tableFor table t = .ok table' →
      Invokes (.placeTasks table (t :: ts), r) (.addModeltoSchedule table' t, r)
  | placeRest {table t ts r table' r'} : s.tableFor table t = .ok table' →
      s.addModeltoSchedule table' t r = .ok (.success, r') →
      Invokes (.placeTasks table (t :: ts), r) (.placeTasks table' ts, r')
  | forget {table t r} : isModelScheduled (s.started t r).cur.task (s.started t r).cur.sim = true →
      Invokes (.addModeltoSchedule table t, r)
        (.forgetTask (s.started t r).cur.sim.addrs, s.started t r)
  | adjustForgotten {table t r targets tsTargets r'} :
      isModelScheduled (s.started t r).cur.task (s.started t r).cur.sim = true →
      s.forgetTask (s.started t r).cur.sim.addrs (s.started t r) =
        .ok ((targets, tsTargets), r') →
      Invokes (.addModeltoSchedule table t, r)
        (.adjustAndShare table (s.sortNodes r'.cur.sim targets) tsTargets, r')
  | estimateType {table t r} :
      isModelScheduled (s.started t r).cur.task (s.started t r).cur.sim = false →
      Invokes (.addModeltoSchedule table t, r)
        (.getMinPartSum table (s.started t r).cur.task, s.started t r)
  | estimateOn {table t r type} :
      isModelScheduled (s.started t r).cur.task (s.started t r).cur.sim = false →
      s.getMinPartSum table (s.started t r).cur.task = .ok type →
      Invokes (.addModeltoSchedule table t, r)
        (.estimate table type (s.started t r).cur.task, s.started t r)
  | adjustUnfit {table t r est} :
      isModelScheduled (s.started t r).cur.task (s.started t r).cur.sim = false →
      s.getEstimate table (s.started t r).cur.task = .ok est →
      s.checkFit (s.stdSort.sort cmpNodeDsc est) (s.started t r).cur.sim = .ok .failure →
      Invokes (.addModeltoSchedule table t, r)
        (.adjustAndShare table
          (s.sortNodes (s.started t r).cur.sim (emptyNodes (s.started t r).cur.sim)) [],
          s.started t r)
  | adjustMisfit {table t r est r'} :
      isModelScheduled (s.started t r).cur.task (s.started t r).cur.sim = false →
      s.getEstimate table (s.started t r).cur.task = .ok est →
      s.checkFit (s.stdSort.sort cmpNodeDsc est) (s.started t r).cur.sim = .ok .success →
      s.allocateFit (s.stdSort.sort cmpNodeDsc est) (s.started t r) = .ok (.failure, r') →
      Invokes (.addModeltoSchedule table t, r)
        (.adjustAndShare table (s.sortNodes r'.cur.sim (emptyNodes r'.cur.sim)) [], r')
  | forgetEmpty {a as r n} : r.cur.sim.node? a = some n → n.vTaskList = [] →
      Invokes (.forgetTask (a :: as), r) (.forgetTask as, r)
  | forgetRest {a as r n n' sum occupancy} : r.cur.sim.node? a = some n → n.vTaskList ≠ [] →
      (s.erased a n r).cur.sim.node? a = some n' →
      s.latencySum n' (s.erased a n r).cur.sim n'.vTaskList = .ok sum →
      fdiv sum (s.dutyOf n') = .ok occupancy →
      Invokes (.forgetTask (a :: as), r)
        (.forgetTask as, s.did (.occupy a occupancy) (s.erased a n r))
  | adjust {table given tsNodes r} :
      Invokes (.adjustAndShare table given tsNodes, r) (.readjust table given, r)
  | merge {table given tsNodes r ret r'} : s.readjust table given r = .ok (ret, r') →
      Invokes (.adjustAndShare table given tsNodes, r) (.mergeResidue table, r')
  | share {table given tsNodes r ret r' r''} : s.readjust table given r = .ok (ret, r') →
      s.mergeResidue table r' = .ok (.failure, r'') → s.useSelfTuning = false →
      Invokes (.adjustAndShare table given tsNodes, r) (.allocateTimeShare tsNodes, r'')
  | saturate {table given r} :
      Invokes (.readjust table given, r)
        (.saturateLoop table s.fuel (s.sortNodes r.cur.sim given),
          if s.useInterference then s.did .absorb r else r)
  | residue {table given r given' r'} :
      s.saturateLoop table s.fuel (s.sortNodes r.cur.sim given)
        (if s.useInterference then s.did .absorb r else r) = .ok (.toResidue given', r') →
      Invokes (.readjust table given, r) (.residueLoop table s.fuel given', r')
  | saturateChoose {table fuel given r} :
      ¬ (r.cur.task.requestRate + r.cur.task.additionalRate ≤ trpSlack ∨ given = []) →
      Invokes (.saturateLoop table (fuel + 1) given, r) (.chooseNode table given, r)
  | saturateSplit {table fuel given r a n} :
      ¬ (r.cur.task.requestRate + r.cur.task.additionalRate ≤ trpSlack ∨ given = []) →
      s.chooseNode table r.cur.task r.cur.sim given = .ok a →
      r.cur.sim.node? a = some n → s.Whole n →
      Invokes (.saturateLoop table (fuel + 1) given, r) (.splitGiven table a given, r)
  | saturateRest {table fuel given r a batch given' r' n latency r''} :
      ¬ (r.cur.task.requestRate + r.cur.task.additionalRate ≤ trpSlack ∨ given = []) →
      s.chooseNode table r.cur.task r.cur.sim given = .ok a →
      s.saturateBatch table a given r = .ok ((batch, given'), r') →
      r'.cur.sim.node? a = some n →
      s.getLatencyOn n.type r.cur.task.id batch n r'.cur.sim = .ok latency → latency ≠ 0 →
      ¬ batch * (1000 / latency) > (r.cur.task.requestRate : ℚ) →
      s.placeSaturated a batch latency (batch * (1000 / latency)) r' = .ok (some (), r'') →
      Invokes (.saturateLoop table (fuel + 1) given, r)
        (.saturateLoop table fuel (given'.erase a), r'')
  | residueChoose {table fuel given r} :
      ¬ r.cur.task.requestRate ≤ trpSlack → given ≠ [] →
      Invokes (.residueLoop table (fuel + 1) given, r) (.chooseNode table given, r)
  | residueSplit {table fuel given r a n} :
      ¬ r.cur.task.requestRate ≤ trpSlack → given ≠ [] →
      s.chooseNode table r.cur.task r.cur.sim given = .ok a →
      r.cur.sim.node? a = some n → s.Whole n →
      Invokes (.residueLoop table (fuel + 1) given, r) (.splitGiven table a given, r)
  | residueRest {table fuel given r a given' r' r''} :
      ¬ r.cur.task.requestRate ≤ trpSlack → given ≠ [] →
      s.chooseNode table r.cur.task r.cur.sim given = .ok a →
      s.splitResidue table a given r = .ok (given', r') →
      s.placeResidue a r' = .ok (some (), r'') →
      Invokes (.residueLoop table (fuel + 1) given, r)
        (.residueLoop table fuel (given'.erase a), r'')
  | chooseType {table given r} : s.priorityCheck = false →
      Invokes (.chooseNode table given, r) (.getMinPartSum table r.cur.task, r)
  | chooseOn {table given r type} : s.chosenType table r.cur.task = .ok type → given ≠ [] →
      Invokes (.chooseNode table given, r) (.getMaxReturnPart table r.cur.task.id type, r)
  | splitEstimate {table a given r n} : r.cur.sim.node? a = some n →
      Invokes (.splitGiven table a given, r) (.estimate table n.type r.cur.task, r)
  | shareTurns {tsNodes r candidates} :
      s.shareCandidates r.cur.task r.cur.sim (tsNodes.filterMap r.cur.sim.node?)
        r.cur.sim.addrs = .ok candidates →
      Invokes (.allocateTimeShare tsNodes, r)
        (.shareLoop (s.shareOrder r.cur.sim candidates)
          ((s.shareOrder r.cur.sim candidates).length + 1), r)
  | shareTurn {candidates fuel r} :
      ¬ r.cur.task.requestRate + r.cur.task.additionalRate ≤ trpSlack →
      Invokes (.shareLoop candidates (fuel + 1), r) (.shareFirst candidates, r)
  | shareAgain {candidates fuel r r'} :
      ¬ r.cur.task.requestRate + r.cur.task.additionalRate ≤ trpSlack →
      s.shareFirst candidates r = .ok (true, r') →
      Invokes (.shareLoop candidates (fuel + 1), r) (.shareLoop candidates fuel, r')
  | shareNext {a as r n} : r.cur.sim.node? a = some n →
      s.shareNode r.cur.task n r.cur.sim = .ok none →
      Invokes (.shareFirst (a :: as), r) (.shareFirst as, r)

/-- Calls that calls lead to. -/
abbrev Visits : Call × Rec Core Action → Call × Rec Core Action → Prop :=
  Relation.ReflTransGen (Invokes s)

/-- The calls that `runScheduling` makes, each at a record of its run. -/
def Enters (table : SatTable) (tasks : List Task) (prev : SimState) (allowRepart : Bool)
    (call : Call) (r : Rec Core Action) : Prop :=
  (s.withRepart allowRepart).Visits (.incrementalScehduling table tasks, ⟨Core.init prev, []⟩)
    (call, r)

variable {s} {r r' : Rec Core Action} {table : SatTable} {e : Fault} {β γ : Type}

/-! ## A run stops where a call stops -/

theorem getSim_then (f : SimState → Sched β) : (getSim >>= f) r = f r.cur.sim r := rfl

theorem getTask_then (f : Task → Sched β) : (getTask >>= f) r = f r.cur.task r := rfl

theorem act_then (a : Action) (f : Unit → Sched β) : (s.act a >>= f) r = f () (s.did a r) := rfl

theorem query_then {q : Query γ} {b : γ} (f : γ → Sched β) (h : q = .ok b) :
    (query q >>= f) r = f b r :=
  Prog.bind_of_ok (Prog.ask_of_ok h)

theorem query_stops {q : Query γ} (f : γ → Sched β) (h : q = .error e) :
    (query q >>= f) r = .error e :=
  Prog.bind_of_error (Prog.ask_of_error h)

theorem getNode_then {a : Addr} {n : Node} (f : Node → Sched β)
    (h : r.cur.sim.node? a = some n) : (getNode a >>= f) r = f n r :=
  Prog.bind_of_ok (Prog.ask_of_ok (by rw [h]))

theorem bind_stops {q : Query γ} {f : γ → Query β} (h : q = .error e) :
    (q >>= f) = .error e := by
  rw [h]
  rfl

/-- `readjust` asks for a type and for that type's part before it takes one of
the given nodes. -/
theorem chooseNode_asks (table : SatTable) (task : Task) (sim : SimState) (given : List Addr) :
    ∃ k : DeviceType → Query Addr,
      (s.chooseNode table task sim given = do
        let type ← s.chosenType table task
        assert (given ≠ [])
        let _ ← s.getMaxReturnPart table task.id type
        k type) ∧
      ∀ type, given ≠ [] → ∃ a, k type = .ok a := by
  unfold chooseNode chosenType
  dsimp only
  cases s.priorityCheck <;>
  · simp only [Bool.false_eq_true, if_false, if_true]
    refine ⟨_, rfl, fun type hne => ?_⟩
    split
    · exact ⟨_, rfl⟩
    · cases given with
      | nil => exact absurd rfl hne
      | cons a as => exact ⟨a, rfl⟩

/-- `readjust` is its first loop from the record after `absorb`, then the second
one where the first says so. -/
theorem readjust_then (table : SatTable) (given : List Addr) :
    ∃ k : LoopEnd → Sched Ret,
      s.readjust table given r = (s.saturateLoop table s.fuel (s.sortNodes r.cur.sim given) >>= k)
        (if s.useInterference then s.did .absorb r else r) ∧
      (∀ given', k (.toResidue given') = s.residueLoop table s.fuel given') ∧
      ∀ ending r' e, k ending r' = .error e → ∃ given', ending = .toResidue given' := by
  unfold readjust
  rw [getSim_then]
  dsimp only
  split
  case isTrue =>
    refine ⟨_, act_then _ _, fun _ => rfl, fun ending r' e h => ?_⟩
    cases ending <;> first | exact ⟨_, rfl⟩ | cases h
  case isFalse =>
    refine ⟨_, rfl, fun _ => rfl, fun ending r' e h => ?_⟩
    cases ending <;> first | exact ⟨_, rfl⟩ | cases h

/-- A model that no node hosts is first estimated. -/
theorem addModel_estimate_stops {t : Task}
    (hsched : isModelScheduled (s.started t r).cur.task (s.started t r).cur.sim = false)
    (h : s.getEstimate table (s.started t r).cur.task = .error e) :
    s.addModeltoSchedule table t r = .error e := by
  unfold addModeltoSchedule
  rw [act_then, getTask_then]
  refine (getSim_then _).trans ?_
  rw [if_neg (by rw [hsched]; exact Bool.false_ne_true)]
  exact query_stops _ h

/-- A call that stops takes its caller with it. -/
theorem Invokes.stops {c c' : Call × Rec Core Action} (h : s.Invokes c c')
    (hstop : c'.1.Stops s e c'.2) : c.1.Stops s e c.2 := by
  cases h with
  | passes hdev =>
      simp only [Call.Stops] at hstop ⊢
      unfold incrementalScehduling
      rw [getSim_then]
      dsimp only
      rw [if_neg hdev]
      exact hstop
  | passesOnNew hdev =>
      simp only [Call.Stops] at hstop ⊢
      unfold incrementalScehduling
      rw [getSim_then]
      dsimp only
      rw [if_pos hdev]
      exact hstop
  | pass => exact Prog.bind_of_error hstop
  | passAgain hpass hint hagain =>
      simp only [Call.Stops] at hstop ⊢
      unfold passLoop
      rw [Prog.bind_of_ok hpass]
      dsimp only
      rw [if_pos hint, getSim_then, hagain]
      exact hstop
  | place => exact (act_then _ _).trans (Prog.bind_of_error hstop)
  | add htable => exact (query_then (q := s.tableFor _ _) _ htable).trans (Prog.bind_of_error hstop)
  | placeRest htable hadd =>
      exact (query_then (q := s.tableFor _ _) _ htable).trans ((Prog.bind_of_ok hadd).trans hstop)
  | forget hsched =>
      simp only [Call.Stops] at hstop ⊢
      unfold addModeltoSchedule
      rw [act_then, getTask_then]
      refine (getSim_then _).trans ?_
      rw [if_pos hsched]
      exact Prog.bind_of_error hstop
  | adjustForgotten hsched hforget =>
      simp only [Call.Stops] at hstop ⊢
      unfold addModeltoSchedule
      rw [act_then, getTask_then]
      refine (getSim_then _).trans ?_
      rw [if_pos hsched, Prog.bind_of_ok hforget]
      exact hstop
  | estimateType hsched =>
      exact addModel_estimate_stops hsched (bind_stops hstop)
  | estimateOn hsched htype =>
      refine addModel_estimate_stops hsched ?_
      rw [getEstimate, htype, Query.ok_bind]
      exact hstop
  | adjustUnfit hsched hest hfit =>
      simp only [Call.Stops] at hstop ⊢
      unfold addModeltoSchedule
      rw [act_then, getTask_then]
      refine (getSim_then _).trans ?_
      rw [if_neg (by rw [hsched]; exact Bool.false_ne_true)]
      rw [query_then _ hest]
      dsimp only
      rw [query_then _ hfit]
      exact hstop
  | adjustMisfit hsched hest hfit hmisfit =>
      simp only [Call.Stops] at hstop ⊢
      unfold addModeltoSchedule
      rw [act_then, getTask_then]
      refine (getSim_then _).trans ?_
      rw [if_neg (by rw [hsched]; exact Bool.false_ne_true)]
      rw [query_then _ hest]
      dsimp only
      rw [query_then _ hfit]
      exact (Prog.bind_of_ok hmisfit).trans hstop
  | forgetEmpty hn hnil =>
      simp only [Call.Stops] at hstop ⊢
      unfold forgetTask
      rw [getNode_then _ hn, getTask_then, if_pos hnil]
      exact Prog.bind_of_error hstop
  | @forgetRest a as r n n' sum occupancy hn hne hn' hsum hocc =>
      simp only [Call.Stops] at hstop ⊢
      unfold forgetTask
      rw [getNode_then _ hn, getTask_then, if_neg hne]
      dsimp only
      unfold erased at hn' hsum hstop
      split at hn'
      case isTrue hfound =>
        rw [if_pos hfound] at hsum hstop
        rw [if_pos hfound, act_then]
        rw [getNode_then _ hn', getSim_then, query_then _ hsum, query_then _ hocc, act_then]
        exact Prog.bind_of_error hstop
      case isFalse hfound =>
        rw [if_neg hfound] at hsum hstop
        rw [if_neg hfound]
        rw [getNode_then _ hn', getSim_then, query_then _ hsum, query_then _ hocc, act_then]
        exact Prog.bind_of_error hstop
  | adjust => exact Prog.bind_of_error hstop
  | merge hre => exact (Prog.bind_of_ok hre).trans (Prog.bind_of_error hstop)
  | share hre hmerge htuning =>
      refine (Prog.bind_of_ok hre).trans ((Prog.bind_of_ok hmerge).trans ?_)
      dsimp only
      rw [if_neg (by rw [htuning]; exact Bool.false_ne_true)]
      exact hstop
  | @saturate table given r =>
      obtain ⟨k, hk, -⟩ := readjust_then (s := s) (r := r) table given
      exact hk.trans (Prog.bind_of_error hstop)
  | @residue table given r given' r' hsat =>
      obtain ⟨k, hk, hrest, -⟩ := readjust_then (s := s) (r := r) table given
      refine hk.trans ((Prog.bind_of_ok hsat).trans ?_)
      rw [hrest]
      exact hstop
  | saturateChoose hcond =>
      simp only [Call.Stops] at hstop ⊢
      unfold saturateLoop
      rw [getTask_then, if_neg hcond, getSim_then]
      exact query_stops _ hstop
  | saturateSplit hcond ha hn hwhole =>
      simp only [Call.Stops] at hstop ⊢
      unfold saturateLoop
      rw [getTask_then, if_neg hcond, getSim_then, query_then _ ha]
      refine Prog.bind_of_error ?_
      unfold saturateBatch
      rw [getNode_then _ hn, if_pos hwhole]
      exact hstop
  | saturateRest hcond ha hbatch hn hlat hne hroom hplace =>
      simp only [Call.Stops] at hstop ⊢
      unfold saturateLoop
      rw [getTask_then, if_neg hcond, getSim_then, query_then _ ha, Prog.bind_of_ok hbatch]
      dsimp only
      rw [getNode_then _ hn, getSim_then, query_then _ hlat,
        query_then _ (fdiv_ok.mpr ⟨hne, rfl⟩), if_neg hroom, Prog.bind_of_ok hplace]
      exact hstop
  | residueChoose hrate hne =>
      simp only [Call.Stops] at hstop ⊢
      unfold residueLoop
      rw [getTask_then, if_neg hrate, if_neg hne, getSim_then]
      exact query_stops _ hstop
  | residueSplit hrate hne ha hn hwhole =>
      simp only [Call.Stops] at hstop ⊢
      unfold residueLoop
      rw [getTask_then, if_neg hrate, if_neg hne, getSim_then, query_then _ ha]
      refine Prog.bind_of_error ?_
      unfold splitResidue
      rw [getNode_then _ hn, if_pos hwhole]
      exact Prog.bind_of_error hstop
  | residueRest hrate hne ha hsplit hplace =>
      simp only [Call.Stops] at hstop ⊢
      unfold residueLoop
      rw [getTask_then, if_neg hrate, if_neg hne, getSim_then, query_then _ ha,
        Prog.bind_of_ok hsplit, Prog.bind_of_ok hplace]
      exact hstop
  | @chooseType table given r hprio =>
      simp only [Call.Stops] at hstop ⊢
      obtain ⟨k, hk, -⟩ := chooseNode_asks (s := s) table r.cur.task r.cur.sim given
      rw [hk]
      refine bind_stops ?_
      rw [chosenType, if_neg (by rw [hprio]; exact Bool.false_ne_true)]
      exact hstop
  | @chooseOn table given r type htype hne =>
      simp only [Call.Stops] at hstop ⊢
      obtain ⟨k, hk, -⟩ := chooseNode_asks (s := s) table r.cur.task r.cur.sim given
      rw [hk, htype, Query.ok_bind, assert, if_pos hne, Query.ok_bind]
      exact bind_stops hstop
  | splitEstimate hn =>
      simp only [Call.Stops] at hstop ⊢
      unfold splitGiven
      rw [getTask_then, getNode_then _ hn]
      exact query_stops _ hstop
  | shareTurns hcand =>
      simp only [Call.Stops] at hstop ⊢
      unfold allocateTimeShare
      rw [getTask_then, getSim_then]
      exact (query_then _ hcand).trans hstop
  | shareTurn hrate =>
      simp only [Call.Stops] at hstop ⊢
      unfold shareLoop
      rw [getTask_then, if_neg hrate]
      exact Prog.bind_of_error hstop
  | shareAgain hrate hfirst =>
      simp only [Call.Stops] at hstop ⊢
      unfold shareLoop
      rw [getTask_then, if_neg hrate, Prog.bind_of_ok hfirst]
      exact hstop
  | shareNext hn hnode =>
      simp only [Call.Stops] at hstop ⊢
      unfold shareFirst
      rw [getNode_then _ hn, getTask_then, getSim_then, query_then _ hnode]
      exact hstop

theorem Visits.stops {c c' : Call × Rec Core Action} (h : s.Visits c c')
    (hstop : c'.1.Stops s e c'.2) : c.1.Stops s e c.2 := by
  induction h with
  | refl => exact hstop
  | tail _ hcall ih => exact ih (hcall.stops hstop)

/-! ## The record of a call -/

/-- A record in which the given nodes are filled for a task. -/
structure Filling (s : Scheduler) (given : List Addr) (r : Rec Core Action) : Prop where
  settled : Settled s r.cur
  free : Free r.cur.sim given
  phase : r.cur.phase = .placing
  additional : s.useInterference = true ∨ r.cur.task.additionalRate = 0

/-- What a routine may rely on when it is called. -/
def Call.Entry (s : Scheduler) (r : Rec Core Action) : Call → Prop
  | incrementalScehduling table _ | passLoop _ table _ _ | elasticPartitioning table _
  | placeTasks table _ => Built s table ∧ Settled s r.cur
  | addModeltoSchedule table t => Tabled s table t.id ∧ Settled s r.cur
  | getMinPartSum table task | estimate table _ task => Tabled s table task.id ∧ Settled s r.cur
  | getMaxReturnPart table id _ => Tabled s table id ∧ Settled s r.cur
  | chooseNode table _ | splitGiven table _ _ => Tabled s table r.cur.task.id ∧ Settled s r.cur
  | adjustAndShare table given _ | readjust table given =>
      Tabled s table r.cur.task.id ∧ Filling s given r
  | saturateLoop table _ given | residueLoop table _ given =>
      Tabled s table r.cur.task.id ∧ Settled s r.cur ∧ Free r.cur.sim given
  | mergeResidue table =>
      Tabled s table r.cur.task.id ∧ Settled s r.cur ∧ r.cur.phase = .placing
  | forgetTask as => Settled s r.cur ∧ as.Nodup
  | allocateTimeShare _ | shareLoop _ _ => Settled s r.cur ∧ r.cur.task.additionalRate = 0
  | shareFirst _ => Settled s r.cur ∧ r.cur.task.additionalRate = 0 ∧
      trpSlack < r.cur.task.requestRate

/-- Guarded actions of any kind. -/
abbrev Reached (s : Scheduler) (r r' : Rec Core Action) : Prop := Steps s Anything r r'

theorem reached_of_steps {K : Action → Prop} (h : Steps s K r r') : Reached s r r' :=
  h.mono fun _ _ => trivial

theorem reached_of_runs {ids : List Int} {K : Action → Prop} (h : Runs s ids K r r') :
    Reached s r r' :=
  Moves.mono (fun _ _ hg => ⟨hg.1.1, trivial⟩) h

theorem reached_act {a : Action} (hd : Detail s r.cur a) : Reached s r (s.did a r) :=
  steps_act hd trivial

/-- A task that `addModeltoSchedule` has just started on. -/
theorem started_ok (t : Task) (hset : Settled s r.cur) :
    Reached s r (s.started t r) ∧ Settled s (s.started t r).cur ∧
      (s.started t r).cur.phase = .placing ∧ (s.started t r).cur.task.additionalRate = 0 :=
  ⟨reached_act hset.uncharged, ⟨hset.pending, hset.unchecked, hset.uncharged⟩, rfl, rfl⟩

/-- `allocateFit` on a list that was estimated for the task, when it fails. -/
theorem misfit_ok {est : List Node} (htab : TableOK s table)
    (hset : Settled s r.cur) (hphase : r.cur.phase = .placing)
    (hadd : r.cur.task.additionalRate = 0) (hest : s.getEstimate table r.cur.task = .ok est)
    (h : s.allocateFit (s.stdSort.sort cmpNodeDsc est) r = .ok (.failure, r')) :
    Reached s r r' ∧ Filling s (s.sortNodes r'.cur.sim (emptyNodes r'.cur.sim)) r' ∧
      r'.cur.task.id = r.cur.task.id := by
  have hin : ∀ n ∈ s.stdSort.sort cmpNodeDsc est, Estimated s r.cur.task.id r.cur.task.SLO n :=
    fun n hn => getEstimate_ok htab hest n ((s.stdSort.perm _ _).mem_iff.mp hn)
  obtain ⟨r2, h2, hset2, hend⟩ := allocateFit_ok hin hset h
  obtain rfl : r' = r2 := by
    rcases hend with ⟨-, heq⟩ | ⟨hc, -⟩
    · exact heq
    · cases hc
  obtain ⟨hphase2, -, hid2, -⟩ := inner_frame h2 fun _ hk => hk.isInner
  refine ⟨reached_of_steps h2, ⟨hset2, (emptyNodes_free _).perm (sortNodes_perm _ _),
    hphase2.trans hphase, ?_⟩, hid2⟩
  cases hs : s.useInterference with
  | true => exact Or.inl rfl
  | false => exact Or.inr (inner_additional h2 hs hadd)

/-- The record in which `readjust` starts its first loop. -/
theorem absorb_ok {given : List Addr} (h : Filling s given r) :
    Reached s r (if s.useInterference then s.did .absorb r else r) ∧
      Settled s (if s.useInterference then s.did .absorb r else r).cur ∧
      Free (if s.useInterference then s.did .absorb r else r).cur.sim
        (s.sortNodes r.cur.sim given) ∧
      (if s.useInterference then s.did .absorb r else r).cur.task.id = r.cur.task.id := by
  have hfree := h.free.perm (sortNodes_perm (s := s) r.cur.sim given)
  split
  case isTrue hint =>
    exact ⟨reached_act hint, ⟨h.settled.pending, h.settled.unchecked, h.settled.uncharged⟩, hfree,
      rfl⟩
  case isFalse => exact ⟨Moves.refl _, h.settled, hfree, rfl⟩

/-- **A call keeps the invariants.** The record a routine is called at is
reached by guarded actions and meets what the routine relies on. -/
theorem Invokes.entry {c c' : Call × Rec Core Action} (h : s.Invokes c c')
    (hentry : c.1.Entry s c.2) : c'.1.Entry s c'.2 ∧ Reached s c.2 c'.2 := by
  cases h with
  | passes | pass => exact ⟨hentry, Moves.refl _⟩
  | passesOnNew hdev =>
      obtain ⟨htab, hset⟩ := hentry
      exact ⟨⟨htab, hset.pending, hset.unchecked, hset.uncharged⟩, reached_act ⟨hdev, rfl⟩⟩
  | passAgain hpass =>
      obtain ⟨hruns, hset, htab, -⟩ := elasticPartitioning_ok hentry.1 hentry.2 hpass
      exact ⟨⟨htab, hset⟩, reached_of_runs hruns⟩
  | place =>
      obtain ⟨htab, hset⟩ := hentry
      exact ⟨⟨htab, hset.pending, hset.unchecked, hset.uncharged⟩, reached_act trivial⟩
  | add htable => exact ⟨⟨tableFor_tabled hentry.1 htable, hentry.2⟩, Moves.refl _⟩
  | placeRest htable hadd =>
      have htab := tableFor_built hentry.1 htable
      obtain ⟨hruns, hset⟩ := addModeltoSchedule_runs htab.ok hentry.2 hadd
      exact ⟨⟨htab, hset⟩, reached_of_runs hruns⟩
  | @forget table t r =>
      obtain ⟨hreach, hset, -⟩ := started_ok t hentry.2
      exact ⟨⟨hset, SimState.addrs_nodup _⟩, hreach⟩
  | @adjustForgotten table t r targets tsTargets r' hsched hforget =>
      obtain ⟨hreach, hset, hphase, hadd⟩ := started_ok t hentry.2
      obtain ⟨h1, -, hfree, -⟩ := forgetTask_ok (SimState.addrs_nodup _) hforget
      obtain ⟨htask, hset1⟩ := forgets_frame h1
      obtain ⟨hphase1, -⟩ := inner_frame h1 fun _ hk => inner_of_forgets hk
      exact ⟨⟨hentry.1.of_id (by rw [htask]; rfl), hset1 hset, hfree.perm (sortNodes_perm _ _),
        hphase1.trans hphase, Or.inr (by rw [htask]; exact hadd)⟩,
        hreach.trans (reached_of_steps h1)⟩
  | @estimateType table t | @estimateOn table t =>
      obtain ⟨hreach, hset, -⟩ := started_ok t hentry.2
      exact ⟨⟨hentry.1.of_id rfl, hset⟩, hreach⟩
  | @adjustUnfit table t =>
      obtain ⟨hreach, hset, hphase, hadd⟩ := started_ok t hentry.2
      exact ⟨⟨hentry.1.of_id rfl, hset, (emptyNodes_free _).perm (sortNodes_perm _ _), hphase,
        Or.inr hadd⟩, hreach⟩
  | @adjustMisfit table t r est r' hsched hest hfit hmisfit =>
      obtain ⟨hreach, hset, hphase, hadd⟩ := started_ok t hentry.2
      obtain ⟨h1, hfill, hid⟩ := misfit_ok hentry.1.ok hset hphase hadd hest hmisfit
      exact ⟨⟨hentry.1.of_id hid, hfill⟩, hreach.trans h1⟩
  | forgetEmpty => exact ⟨⟨hentry.1, (List.nodup_cons.mp hentry.2).2⟩, Moves.refl _⟩
  | @forgetRest a as r n n' sum occupancy hn hne hn' =>
      have h1 : Steps s Forgets r (s.erased a n r) := by
        unfold erased
        split
        case isTrue hfound => exact steps_act (a := .forget a) ⟨n, hn, hfound⟩ rfl
        case isFalse => exact Moves.refl _
      have h2 := h1.trans (steps_act (a := .occupy a occupancy) ⟨n', hn'⟩ rfl)
      exact ⟨⟨(forgets_frame h2).2 hentry.1, (List.nodup_cons.mp hentry.2).2⟩,
        reached_of_steps h2⟩
  | adjust => exact ⟨hentry, Moves.refl _⟩
  | merge hre =>
      obtain ⟨htab, hfill⟩ := hentry
      obtain ⟨h1, hset1, -⟩ := readjust_ok htab.ok hfill.free hfill.settled hre
      obtain ⟨hphase1, -, hid1, -⟩ := inner_frame h1 fun _ hk => (inner_of_readjusts hk).isInner
      exact ⟨⟨htab.of_id hid1, hset1, hphase1.trans hfill.phase⟩, reached_of_steps h1⟩
  | share hre hmerge =>
      obtain ⟨htab, hfill⟩ := hentry
      obtain ⟨h1, hset1, hadd1⟩ := readjust_ok htab.ok hfill.free hfill.settled hre
      obtain ⟨hphase1, -⟩ := inner_frame h1 fun _ hk => (inner_of_readjusts hk).isInner
      obtain ⟨h2, -⟩ := mergeResidue_ok hset1 (hphase1.trans hfill.phase) hmerge
      obtain ⟨-, -, hadd2, hset2⟩ := merges_frame h2
      exact ⟨⟨hset2 hset1, hadd2.trans (hadd1 hfill.additional)⟩,
        (reached_of_steps h1).trans (reached_of_steps h2)⟩
  | saturate =>
      obtain ⟨htab, hfill⟩ := hentry
      obtain ⟨h1, hset1, hfree1, hid1⟩ := absorb_ok hfill
      exact ⟨⟨htab.of_id hid1, hset1, hfree1⟩, h1⟩
  | residue hsat =>
      obtain ⟨htab, hfill⟩ := hentry
      obtain ⟨h1, hset1, hfree1, hid1⟩ := absorb_ok hfill
      obtain ⟨h2, hset2, hfree2⟩ := saturateLoop_ok htab.ok hfree1 hset1 hsat
      obtain ⟨-, -, hid2, -⟩ := inner_frame h2 fun _ hk => (inner_of_readjusts hk).isInner
      exact ⟨⟨htab.of_id (hid2.trans hid1), hset2, hfree2 _ rfl⟩, h1.trans (reached_of_steps h2)⟩
  | saturateChoose | saturateSplit | residueChoose | residueSplit =>
      exact ⟨⟨hentry.1, hentry.2.1⟩, Moves.refl _⟩
  | saturateRest hcond ha hbatch hn hlat hne hroom hplace =>
      obtain ⟨htab, hset, hfree⟩ := hentry
      obtain ⟨h1, hfree1, hset1⟩ :=
        saturateTurn_ok htab.ok hfree hset ha hbatch hn hlat hne hplace
      obtain ⟨-, -, hid1, -⟩ := inner_frame h1 fun _ hk => (inner_of_readjusts hk).isInner
      exact ⟨⟨htab.of_id hid1, hset1, hfree1⟩, reached_of_steps h1⟩
  | residueRest hrate hne ha hsplit hplace =>
      obtain ⟨htab, hset, hfree⟩ := hentry
      obtain ⟨h1, hfree1, hset1⟩ := residueTurn_ok htab.ok hfree hset hrate ha hsplit hplace
      obtain ⟨-, -, hid1, -⟩ := inner_frame h1 fun _ hk => (inner_of_readjusts hk).isInner
      exact ⟨⟨htab.of_id hid1, hset1, hfree1⟩, reached_of_steps h1⟩
  | chooseType | chooseOn | splitEstimate | shareTurns | shareNext =>
      exact ⟨hentry, Moves.refl _⟩
  | shareTurn hrate =>
      obtain ⟨hset, hadd⟩ := hentry
      rw [hadd, add_zero] at hrate
      exact ⟨⟨hset, hadd, not_le.mp hrate⟩, Moves.refl _⟩
  | shareAgain hrate hfirst =>
      obtain ⟨hset, hadd⟩ := hentry
      rw [hadd, add_zero] at hrate
      obtain ⟨h1, hset1, hadd1⟩ := shareFirst_ok hset (not_le.mp hrate) hfirst
      exact ⟨⟨hset1, hadd1.trans hadd⟩, reached_of_steps h1⟩

theorem Visits.entry {c c' : Call × Rec Core Action} (h : s.Visits c c')
    (hentry : c.1.Entry s c.2) : c'.1.Entry s c'.2 ∧ Reached s c.2 c'.2 := by
  induction h with
  | refl => exact ⟨hentry, Moves.refl _⟩
  | tail _ hcall ih =>
      obtain ⟨hentry1, h1⟩ := ih
      obtain ⟨hentry2, h2⟩ := hcall.entry hentry1
      exact ⟨hentry2, h1.trans h2⟩

end Scheduler

end Glet
