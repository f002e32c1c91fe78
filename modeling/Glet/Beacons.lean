import Glet.FrontendRuns
import Glet.Simulation

/-!
# The running frontend

After initial scheduling the scheduler thread wakes up at every beacon. In an
epoch it routes the decision of the last one and makes another; then it gives
the batching threads their next tasks (`staticMPSScheduler`), by the net lists
and only for proxies whose queue is empty. Meanwhile batching threads take tasks
from the queues and ask the load balancer, and an unloading thread may find a
proxy without models and take it out of the schedule.

A run is any sequence of these steps. What other threads have done to the
queues, counters and loaded models is read anew at each of them.
-/

namespace Glet.Devices.Beacons

open Frontend Routing Unload

/-! ## State -/

structure TaskSpec where
  deviceID : Int
  reqName : String
  batchSize : Int
  proxy : ProxyInfo
  deriving DecidableEq

/-- The scheduler thread's state, the routing tables and `PerProxyBatchList`. -/
structure Running where
  front : Frontend
  routes : Routes
  perProxyBatchList : ProxyInfo → List TaskSpec

/-- What a beacon reads that other threads write. -/
structure Glimpse where
  lenofReqQueue : String → Nat
  loadedModels : ProxyInfo → List String
  isTaskBatching : ProxyInfo → String → Int
  isTaskExec : ProxyInfo → String → Int

/-- `getTasksNeedScheduling`; a name without a queue is absent and reads false. -/
def needDecision (netNames : List String) (look : Glimpse) (name : String) : Bool :=
  decide (name ∈ netNames) && look.lenofReqQueue name != 0

/-! ## Dispatch -/

/-- May some net of the proxy start a batch? -/
def assignsTask (netNames : List String) (look : Glimpse) (r : Routes) (p : ProxyInfo) : Bool :=
  (r.perProxyNetList p).any fun net =>
    decide (look.isTaskBatching p net.1 + look.isTaskExec p net.1 < 2) &&
      decide (look.isTaskBatching p net.1 = 0) && needDecision netNames look net.1

/-- One turn of the inner loop of `staticMPSScheduler`. -/
def specsOf (netNames : List String) (look : Glimpse) (st : Running) (j : Int) (p : ProxyInfo) :
    List TaskSpec :=
  if look.loadedModels p = [] ∨ st.routes.isSchedulable p = false then []
  else if st.perProxyBatchList p = [] then
    if assignsTask netNames look st.routes p then
      ((st.routes.perProxyNetList p).filter fun net => needDecision netNames look net.1).map
        fun net => ⟨j, net.1, net.2, p⟩
    else []
  else []

def staticMPSScheduler (sys : SysMonitor) (netNames : List String) (look : Glimpse) (st : Running) :
    List TaskSpec :=
  (List.range sys.nGPUs.toNat).flatMap fun j : Nat =>
    (sys.perDevMPSInfo j).flatMap (specsOf netNames look st j)

def insertToBatchQueueofProxy (st : Running) (task : TaskSpec) : Running :=
  { st with
    perProxyBatchList := Function.update st.perProxyBatchList task.proxy
      (st.perProxyBatchList task.proxy ++ [task]) }

/-! ## Steps -/

inductive Event where
  /-- The part of `OracleScheduler` that runs when the interval is over. -/
  | epoch (env : Nat → Environment) (fuel : Nat)
  /-- The rest of it, and `doMPSScheduling`. -/
  | dispatch (look : Glimpse)
  /-- A batching thread takes the front task, to batch it or to skip it. -/
  | take (p : ProxyInfo)
  /-- A batching thread asks the load balancer. -/
  | checkLoad (model : Int) (p : Glet.ProxyInfo)
  /-- `shutdownProxy_sync` in an unloading thread. -/
  | shutDown (p : ProxyInfo)

variable (s : Scheduler) (sys : SysMonitor) (g : Service)

/-- The tables after the routing phase. -/
def routeNext (st : Running) : Query Routes :=
  if st.front.needUpdate then applyRouting_sync s sys st.front.nextState st.routes
  else .ok st.routes

def epoch (env : Nat → Environment) (fuel : Nat) (st : Running) : Query Running := do
  let routes ← routeNext s sys st
  let (_, front) ← st.front.oracleScheduler s g sys.nGPUs env fuel
  return { st with front, routes }

def step : Event → Running → Option Running
  | .epoch env fuel, st => (epoch s sys g env fuel st).toOption
  | .dispatch look, st =>
      some ((staticMPSScheduler sys g.netNames look st).foldl insertToBatchQueueofProxy st)
  | .take p, st =>
      match st.perProxyBatchList p with
      | [] => none
      | _ :: rest =>
          some { st with perProxyBatchList := Function.update st.perProxyBatchList p rest }
  | .checkLoad model p, st =>
      some { st with routes := { st.routes with
        loadBalancer := (st.routes.loadBalancer.checkLoad model p).2 } }
  | .shutDown p, st =>
      some { st with routes := { st.routes with
        isSchedulable := Function.update st.routes.isSchedulable p false } }

/-- A global scheduler as it is set up. -/
def setUpFrontend (rates : Rates) (table : SatTable) (nGPUs : Int) : Frontend where
  numMaxGPU := nGPUs
  satTable := table
  rates := rates
  prevState := ⟨[], []⟩
  currState := ⟨[], []⟩
  nextState := ⟨[], []⟩
  needUpdate := false

/-- `oneshotScheduling`. The proxies of the first decision are looked up to be
booted; if there is none the frontend goes on without. -/
def boot (rates : Rates) (table : SatTable) (arivRate : String → ℚ) : Query Running := do
  let (ret, front) ←
    (setUpFrontend rates table sys.nGPUs).oneshotScheduling s g sys.nGPUs arivRate
  match ret with
  | .failure => return ⟨front, .initial .wrr, fun _ => []⟩
  | .success => do
      let _ ← front.currState.nodes.mapM (proxyOf sys)
      let routes ← applyRouting_sync s sys front.currState (.initial .wrr)
      return ⟨front, routes, fun _ => []⟩

/-! ## Routes follow decisions -/

variable {s sys g} {nodes : List BackendNode} {st st' : Running} {e : Event} {p : ProxyInfo}
  {look : Glimpse} {spec : TaskSpec}

theorem insertAll_eq {specs : List TaskSpec} :
    specs.foldl insertToBatchQueueofProxy st =
      { st with perProxyBatchList := fun p =>
          st.perProxyBatchList p ++ specs.filter fun spec => spec.proxy = p } := by
  induction specs generalizing st with
  | nil => simp
  | cons spec specs ih =>
      rw [List.foldl_cons, ih]
      simp only [insertToBatchQueueofProxy, Running.mk.injEq, true_and]
      funext p
      by_cases hp : spec.proxy = p
      · subst hp
        simp
      · rw [Function.update_of_ne (Ne.symm hp), List.filter_cons_of_neg (by simpa using hp)]

/-- The decisions are laid out, and the tables are those of the current one. -/
structure Inv (s : Scheduler) (sys : SysMonitor) (st : Running) : Prop where
  holds : st.front.Holds s (Laid s)
  routed : Routed sys st.front.currState st.routes

theorem Routed.checkLoad {sim : SimState} {r : Routes} (h : Routed sys sim r) (model : Int)
    (q : Glet.ProxyInfo) :
    Routed sys sim { r with loadBalancer := (r.loadBalancer.checkLoad model q).2 } := by
  refine ⟨h.found, h.nets, h.others, fun hwrr => ?_⟩
  have htype : r.loadBalancer.type = .wrr := by
    cases ht : r.loadBalancer.type with
    | wrr => rfl
    | no =>
        simp only [LoadBalancer.checkLoad, ht] at hwrr
        cases hwrr
  exact (h.balanced htype).checkLoad model q

theorem Routed.shutDown {sim : SimState} {r : Routes} (h : Routed sys sim r) (p : ProxyInfo) :
    Routed sys sim { r with isSchedulable := Function.update r.isSchedulable p false } := by
  have hoff : ∀ q, Function.update r.isSchedulable p false q = true → r.isSchedulable q = true := by
    intro q hq
    by_cases heq : q = p
    · rw [heq, Function.update_self] at hq
      cases hq
    · rwa [Function.update_of_ne heq] at hq
  refine ⟨h.found, fun n hn q hq => ?_, fun q hq hnone => ?_, h.balanced⟩
  · obtain ⟨hnets, hsched, hduty⟩ := h.nets n hn q hq
    exact ⟨hnets, fun hon => hsched (hoff q hon), hduty⟩
  · obtain ⟨hnil, hfalse⟩ := h.others q hq hnone
    refine ⟨hnil, Bool.eq_false_iff.mpr fun hon => ?_⟩
    rw [hoff q hon] at hfalse
    cases hfalse

/-- The proxies of nodes with tasks are in the schedule, but for these. -/
def InUse (sys : SysMonitor) (sim : SimState) (r : Routes) (off : ProxyInfo → Prop) : Prop :=
  ∀ n ∈ sim.nodes, ∀ p, Has sys p n = true → n.vTaskList ≠ [] → r.isSchedulable p = true ∨ off p

theorem InUse.of_content {sim sim' : SimState} {r : Routes} {off : ProxyInfo → Prop}
    (hsame : sim'.content = sim.content) (h : InUse sys sim r off) : InUse sys sim' r off := by
  intro n' hn' p hp hne
  obtain ⟨n, hn, heq⟩ := exists_node_of_content hsame hn'
  refine h n hn p ((has_congr heq).symm.trans hp) fun hnil => hne ?_
  rw [copyNode_tasks_eq_nil, ← heq, ← copyNode_tasks_eq_nil]
  exact hnil

/-- The decision that is routed is the one that becomes the current one. -/
theorem epoch_inv {env : Nat → Environment} {fuel : Nat} (hserves : Serves nodes s)
    (hlasting : Lasting s (Laid s)) (h : Inv s (configureProxys nodes) st)
    (hrun : epoch s (configureProxys nodes) g env fuel st = .ok st') :
    Inv s (configureProxys nodes) st' ∧ st'.perProxyBatchList = st.perProxyBatchList ∧
      ∀ off, (st.front.needUpdate = false →
          InUse (configureProxys nodes) st.front.currState st.routes off) →
        InUse (configureProxys nodes) st'.front.currState st'.routes off := by
  simp only [epoch, Query.bind_ok, Query.pure_ok] at hrun
  obtain ⟨routes, hroutes, ⟨ret, front⟩, horacle, rfl⟩ := hrun
  obtain ⟨hholds, hcontent⟩ := oracleScheduler_holds hlasting h.holds horacle
  unfold routeNext at hroutes
  unfold applyRouting at hcontent
  split at hroutes
  case isTrue hneed =>
    rw [if_pos hneed] at hcontent
    obtain ⟨r', hr', hrouted, hon⟩ := h.holds.next.routed hserves st.routes
    obtain rfl := Except.ok.inj (hr'.symm.trans hroutes)
    have hnext := hcontent.trans (SimState.content_copy s st.front.nextState)
    exact ⟨⟨hholds, hrouted.of_content hnext⟩, rfl, fun off _ =>
      InUse.of_content hnext fun n hn p hp hne => Or.inl (hon n hn p hp hne)⟩
  case isFalse hneed =>
    rw [if_neg hneed] at hcontent
    obtain rfl := Except.ok.inj hroutes
    exact ⟨⟨hholds, h.routed.of_content hcontent⟩, rfl, fun off hoff =>
      InUse.of_content hcontent (hoff (Bool.eq_false_iff.mpr hneed))⟩

theorem epoch_of_step {env : Nat → Environment} {fuel : Nat}
    (hstep : step s sys g (.epoch env fuel) st = some st') :
    epoch s sys g env fuel st = .ok st' := by
  rw [step] at hstep
  cases hq : epoch s sys g env fuel st with
  | error err =>
      rw [hq] at hstep
      cases hstep
  | ok st1 =>
      rw [hq] at hstep
      rw [Option.some.inj hstep]

theorem Inv.step (hserves : Serves nodes s) (hlasting : Lasting s (Laid s))
    (h : Inv s (configureProxys nodes) st)
    (hstep : step s (configureProxys nodes) g e st = some st') :
    Inv s (configureProxys nodes) st' := by
  cases e with
  | epoch env fuel => exact (epoch_inv hserves hlasting h (epoch_of_step hstep)).1
  | dispatch look =>
      obtain rfl := Option.some.inj hstep
      rw [insertAll_eq]
      exact ⟨h.holds, h.routed⟩
  | take p =>
      unfold Beacons.step at hstep
      dsimp only at hstep
      split at hstep
      · cases hstep
      · obtain rfl := Option.some.inj hstep
        exact ⟨h.holds, h.routed⟩
  | checkLoad model q =>
      obtain rfl := Option.some.inj hstep
      exact ⟨h.holds, Routed.checkLoad h.routed model q⟩
  | shutDown p =>
      obtain rfl := Option.some.inj hstep
      exact ⟨h.holds, Routed.shutDown h.routed p⟩

theorem registered_start : LoadBalancer.Registered [] LoadBalancer.start :=
  LoadBalancer.registered_update (show LoadBalancer.start.type = .wrr from rfl) []

theorem boot_inv {rates : Rates} {table : SatTable} {arivRate : String → ℚ}
    (hserves : Serves nodes s) (hlasting : Lasting s (Laid s)) (htab : Built s table)
    (h : boot s (configureProxys nodes) g rates table arivRate = .ok st) :
    Inv s (configureProxys nodes) st ∧ st.perProxyBatchList = (fun _ => []) ∧
      InUse (configureProxys nodes) st.front.currState st.routes fun _ => False := by
  have hfresh : (setUpFrontend rates table (configureProxys nodes).nGPUs).Holds s (Laid s) :=
    ⟨htab, hlasting.empty, hlasting.empty, hlasting.empty⟩
  unfold boot at h
  obtain ⟨⟨ret, front⟩, hone, h⟩ := Query.bind_ok.mp h
  obtain ⟨hholds, hkeep⟩ := oneshotScheduling_holds hlasting hfresh hone
  cases ret with
  | failure =>
      obtain rfl := Query.pure_ok.mp h
      have hnone : front.currState = ⟨[], []⟩ := hkeep rfl
      refine ⟨⟨hholds, ?_⟩, rfl, ?_⟩
      · show Routed _ front.currState _
        rw [hnone]
        exact ⟨fun _ hn => absurd hn List.not_mem_nil, fun _ hn => absurd hn List.not_mem_nil,
          fun _ _ _ => ⟨rfl, rfl⟩, fun _ => registered_start⟩
      · show InUse _ front.currState _ _
        rw [hnone]
        exact fun _ hn => absurd hn List.not_mem_nil
  | success =>
      simp only [Query.bind_ok, Query.pure_ok] at h
      obtain ⟨-, -, routes, hroutes, rfl⟩ := h
      obtain ⟨r', hr', hrouted, hon⟩ := hholds.curr.routed hserves (.initial .wrr)
      obtain rfl := Except.ok.inj (hr'.symm.trans hroutes)
      exact ⟨⟨hholds, hrouted⟩, rfl, fun n hn p hp hne => Or.inl (hon n hn p hp hne)⟩

/-- The invariant holds after any steps. -/
theorem inv_of_run {rates : Rates} {table : SatTable} {arivRate : String → ℚ} {es : List Event}
    (hserves : Serves nodes s) (hlasting : Lasting s (Laid s)) (htab : Built s table)
    (hboot : boot s (configureProxys nodes) g rates table arivRate = .ok st)
    (hrun : Machine.run (step s (configureProxys nodes) g) es st = some st') :
    Inv s (configureProxys nodes) st' :=
  Machine.run_invariant (fun _ _ _ h hstep => Inv.step hserves hlasting h hstep) hrun
    (boot_inv hserves hlasting htab hboot).1

/-! ## Proxies in use -/

/-- The step routes nothing. -/
def Unrouted (st : Running) (e : Event) : Prop :=
  ∀ env fuel, e = .epoch env fuel → st.front.needUpdate = false

/-- In these steps the proxy was shut down, and nothing has been routed since. -/
def ShutSince (s : Scheduler) (sys : SysMonitor) (g : Service) (es : List Event) (st : Running)
    (p : ProxyInfo) : Prop :=
  ∃ before after st1, es = before ++ .shutDown p :: after ∧
    Machine.run (step s sys g) before st = some st1 ∧
    Machine.Along (step s sys g) Unrouted (.shutDown p :: after) st1

theorem ShutSince.concat {es : List Event} (h : ShutSince s sys g es st p)
    (hrun : Machine.run (step s sys g) es st = some st') (he : Unrouted st' e) :
    ShutSince s sys g (es ++ [e]) st p := by
  obtain ⟨before, after, st1, rfl, hbefore, halong⟩ := h
  obtain ⟨st2, hst2, hafter⟩ := Machine.run_append_eq_some.mp hrun
  obtain rfl := Option.some.inj (hbefore.symm.trans hst2)
  exact ⟨before, after ++ [e], st1, by rw [List.append_assoc]; rfl, hbefore,
    halong.concat hafter he⟩

/-- A proxy leaves the schedule by being shut down. -/
theorem inUse_of_run {rates : Rates} {table : SatTable} {arivRate : String → ℚ} {es : List Event}
    (hserves : Serves nodes s) (hlasting : Lasting s (Laid s)) (htab : Built s table)
    (hboot : boot s (configureProxys nodes) g rates table arivRate = .ok st)
    (hrun : Machine.run (step s (configureProxys nodes) g) es st = some st') :
    InUse (configureProxys nodes) st'.front.currState st'.routes
      (ShutSince s (configureProxys nodes) g es st) := by
  induction es using List.reverseRecOn generalizing st' with
  | nil =>
      obtain rfl := Option.some.inj hrun
      exact fun n hn p hp hne => ((boot_inv hserves hlasting htab hboot).2.2 n hn p hp hne).imp_right
        False.elim
  | append_singleton es e ih =>
      obtain ⟨st1, hbefore, hlast⟩ := Machine.run_concat.mp hrun
      have hkeep : Unrouted st1 e → InUse (configureProxys nodes) st1.front.currState st1.routes
          (ShutSince s (configureProxys nodes) g (es ++ [e]) st) := fun he n hn p hp hne =>
        (ih hbefore n hn p hp hne).imp_right fun hshut => hshut.concat hbefore he
      cases e with
      | epoch env fuel =>
          refine (epoch_inv hserves hlasting (inv_of_run hserves hlasting htab hboot hbefore)
            (epoch_of_step hlast)).2.2 _ fun hno => hkeep fun _ _ _ => hno
      | dispatch look =>
          obtain rfl := Option.some.inj hlast
          rw [insertAll_eq]
          exact hkeep fun _ _ h => by cases h
      | take q =>
          have hunrouted : Unrouted st1 (.take q) := fun _ _ h => by cases h
          unfold step at hlast
          dsimp only at hlast
          split at hlast
          · cases hlast
          · obtain rfl := Option.some.inj hlast
            exact hkeep hunrouted
      | checkLoad model q =>
          obtain rfl := Option.some.inj hlast
          exact hkeep fun _ _ h => by cases h
      | shutDown q =>
          obtain rfl := Option.some.inj hlast
          have hunrouted : Unrouted st1 (.shutDown q) := fun _ _ h => by cases h
          intro n hn p hp hne
          by_cases heq : p = q
          · subst heq
            exact Or.inr ⟨es, [], st1, rfl, hbefore, hunrouted, fun _ _ => trivial⟩
          · refine (hkeep hunrouted n hn p hp hne).imp_left fun hon => ?_
            show Function.update st1.routes.isSchedulable q false p = true
            rw [Function.update_of_ne heq, hon]

/-! ## One GPU and one model -/

section OneGPU

open Scheduler

def wholeBackend : Backend :=
  ⟨"0-0", [100], (startBackend "0-0" [100]).get (by decide +kernel), (Option.some_get _).symm⟩

def oneNode : List BackendNode := connectBackendList [some wholeBackend]

def wholeProxy : ProxyInfo := ⟨0, 0, 100, 0, 0⟩

def lenetService : Service := ⟨["lenet1"], fun _ => 30⟩

/-- A target of 100 requests per second. -/
def lenetRates : Rates :=
  ⟨fun name => if name = "lenet1" then some 100 else none, fun _ => [], false⟩

def traffic : Nat → Environment := fun _ => ⟨fun _ => 200, fun _ => [], fun _ => none⟩

/-- Requests wait, and no batch is on its way. -/
def waiting : Glimpse := ⟨fun _ => 3, fun _ => ["lenet1"], fun _ _ => 0, fun _ _ => 0⟩

def oneGPU : Scheduler := plain (profile [100] fun _ _ => 5) [100] 1

theorem oneGPU_serves : Serves oneNode oneGPU := by
  refine ⟨sorted_connectBackendList _, ?_, by decide +kernel⟩
  show ∀ n ∈ oneNode, ∀ part ∈ oneGPU.availParts, part ∈ n.sizes
  decide +kernel

theorem oneGPU_avail : AvailParts oneGPU.availParts := ⟨by decide, by decide, by decide⟩

/-- It boots, and steps with a given result can be taken. -/
theorem oneGPU_runs (es : List Event) (test : Running → Bool)
    (h : ((boot oneGPU (configureProxys oneNode) lenetService lenetRates (fun _ => none)
      fun _ => 0).toOption.bind fun st =>
        (Machine.run (step oneGPU (configureProxys oneNode) lenetService) es st)).any test = true) :
    ∃ st st', boot oneGPU (configureProxys oneNode) lenetService lenetRates (fun _ => none)
        (fun _ => 0) = .ok st ∧
      Machine.run (step oneGPU (configureProxys oneNode) lenetService) es st = some st' ∧
      test st' = true := by
  obtain ⟨st', hrun, htest⟩ := (Option.any_eq_true _ _).mp h
  obtain ⟨st, hst, hrun⟩ := Option.bind_eq_some_iff.mp hrun
  cases hboot : boot oneGPU (configureProxys oneNode) lenetService lenetRates (fun _ => none)
      fun _ => 0 with
  | error err =>
      rw [hboot] at hst
      cases hst
  | ok st0 =>
      rw [hboot] at hst
      obtain rfl := Option.some.inj hst
      exact ⟨st0, st', rfl, hrun, htest⟩

end OneGPU

/-! ## Whole runs -/

/-- **Routes follow decisions.** From any start, through any steps of the
frontend: the three decisions can be routed, and the tables are those of the
current one, in whose nodes with tasks only proxies that were shut down after it
was routed are out of the schedule. In particular the next routing finds a proxy
for every node. -/
theorem routes_follow_decision {rates : Rates} {table : SatTable} {arivRate : String → ℚ}
    {es : List Event} (hserves : Serves nodes s) (havail : AvailParts s.availParts)
    (hprofile : ProfileRange s) (htab : Built s table)
    (hboot : boot s (configureProxys nodes) g rates table arivRate = .ok st)
    (hrun : Machine.run (step s (configureProxys nodes) g) es st = some st') :
    Routed (configureProxys nodes) st'.front.currState st'.routes ∧
      InUse (configureProxys nodes) st'.front.currState st'.routes
        (ShutSince s (configureProxys nodes) g es st) ∧
      (∀ sim ∈ [st'.front.prevState, st'.front.currState, st'.front.nextState], Laid s sim) ∧
      ∃ routes, routeNext s (configureProxys nodes) st' = .ok routes := by
  have hlasting := laid_lasting havail hprofile
  have hinv := inv_of_run hserves hlasting htab hboot hrun
  refine ⟨hinv.routed, inUse_of_run hserves hlasting htab hboot hrun, ?_, ?_⟩
  · intro sim hsim
    simp only [List.mem_cons, List.not_mem_nil, or_false] at hsim
    rcases hsim with rfl | rfl | rfl
    · exact hinv.holds.prev
    · exact hinv.holds.curr
    · exact hinv.holds.next
  · unfold routeNext
    split
    · obtain ⟨r', hr', -⟩ := hinv.holds.next.routed hserves st'.routes
      exact ⟨r', hr'⟩
    · exact ⟨_, rfl⟩

/-- The rate doubles: the second epoch routes what the first one decided, and the
proxy that was shut down in between is back in the schedule. -/
theorem routes_follow_decision_twice :
    ∃ st st', boot oneGPU (configureProxys oneNode) lenetService lenetRates (fun _ => none)
        (fun _ => 0) = .ok st ∧
      Machine.run (step oneGPU (configureProxys oneNode) lenetService)
        [.dispatch waiting, .epoch traffic 1, .take wholeProxy, .shutDown wholeProxy,
          .epoch traffic 1] st = some st' ∧
      Routed (configureProxys oneNode) st'.front.currState st'.routes ∧
      st'.routes.perProxyNetList wholeProxy = [("lenet1", 6)] ∧
      st'.routes.isSchedulable wholeProxy = true := by
  obtain ⟨st, st', hboot, hrun, htest⟩ := oneGPU_runs
    [.dispatch waiting, .epoch traffic 1, .take wholeProxy, .shutDown wholeProxy, .epoch traffic 1]
    (fun st => decide (st.routes.perProxyNetList wholeProxy = [("lenet1", 6)] ∧
      st.routes.isSchedulable wholeProxy = true))
    (by decide +kernel)
  exact ⟨st, st', hboot, hrun, (routes_follow_decision oneGPU_serves oneGPU_avail
    (profileRange_plain _ _ _) .empty hboot hrun).1, of_decide_eq_true htest⟩

/-! ## Queues -/

theorem nodup_allProxys (hserves : Serves nodes s) : (allProxys (configureProxys nodes)).Nodup := by
  refine List.nodup_flatMap.mpr ⟨fun j _ => nodup_perDevMPSInfo hserves.sorted j, ?_⟩
  refine List.nodup_range.pairwise_of_forall_ne fun i _ j _ hne => ?_
  rintro p hp hp'
  have hdev := devID_of_mem hserves.sorted hp
  rw [devID_of_mem hserves.sorted hp'] at hdev
  exact hne (Int.ofNat_inj.mp hdev.symm)

/-- What `staticMPSScheduler` makes goes proxy by proxy. -/
theorem staticMPSScheduler_eq (hsys : Unload.Homed sys) {netNames : List String} :
    staticMPSScheduler sys netNames look st =
      (allProxys sys).flatMap fun p => specsOf netNames look st p.devID p := by
  simp only [staticMPSScheduler, allProxys, List.flatMap_assoc]
  refine List.flatMap_congr fun j _ => List.flatMap_congr fun p hp => ?_
  rw [hsys.devID_eq hp]

theorem of_mem_specsOf {netNames : List String} {j : Int}
    (h : spec ∈ specsOf netNames look st j p) : spec.proxy = p ∧ spec.deviceID = j ∧
      st.perProxyBatchList p = [] ∧
        (spec.reqName, spec.batchSize) ∈ st.routes.perProxyNetList p := by
  unfold specsOf at h
  split at h
  case isTrue => cases h
  case isFalse =>
    split at h
    case isFalse => cases h
    case isTrue hempty =>
      split at h
      case isFalse => cases h
      case isTrue =>
        obtain ⟨net, hnet, rfl⟩ := List.mem_map.mp h
        exact ⟨rfl, rfl, hempty, (List.mem_filter.mp hnet).1⟩

theorem filter_flatMap_of_nodup {α β : Type} [DecidableEq α] {l : List α} {f : α → List β}
    {key : β → α} (hnodup : l.Nodup) (hkey : ∀ a, ∀ b ∈ f a, key b = a) (a : α) :
    (l.flatMap f).filter (fun b => decide (key b = a)) = if a ∈ l then f a else [] := by
  induction l with
  | nil => rfl
  | cons a' l ih =>
      obtain ⟨hnot, hnodup⟩ := List.nodup_cons.mp hnodup
      rw [List.flatMap_cons, List.filter_append, ih hnodup]
      by_cases ha : a = a'
      · subst ha
        have hall : (f a).filter (fun b => decide (key b = a)) = f a :=
          List.filter_eq_self.mpr fun b hb => by simpa using hkey a b hb
        simp [hall, hnot]
      · have hnone : (f a').filter (fun b => decide (key b = a)) = [] :=
          List.filter_eq_nil_iff.mpr fun b hb => by simpa [hkey a' b hb] using Ne.symm ha
        simp [hnone, ha]

/-- What a dispatch adds to the queue of a proxy. -/
theorem dispatched (hserves : Serves nodes s) {netNames : List String} (p : ProxyInfo) :
    (staticMPSScheduler (configureProxys nodes) netNames look st).filter
        (fun spec => decide (spec.proxy = p)) =
      if p ∈ allProxys (configureProxys nodes) then specsOf netNames look st p.devID p else [] := by
  rw [staticMPSScheduler_eq hserves.homed]
  exact filter_flatMap_of_nodup (nodup_allProxys hserves)
    (fun p spec hspec => (of_mem_specsOf hspec).1) p

/-- The net list of a proxy has every model once, and what it has comes from a
node of the current decision. -/
theorem Inv.netList (h : Inv s sys st) (hp : p ∈ allProxys sys) :
    ((st.routes.perProxyNetList p).map Prod.fst).Nodup ∧
      ∀ net ∈ st.routes.perProxyNetList p, ∃ n ∈ st.front.currState.nodes, Has sys p n = true ∧
        ∃ t ∈ n.vTaskList, netOf t = net := by
  by_cases hnone : ∀ n ∈ st.front.currState.nodes, ¬ Has sys p n = true
  · rw [(h.routed.others p hp hnone).1]
    exact ⟨List.nodup_nil, by simp⟩
  · push Not at hnone
    obtain ⟨n, hn, hhas⟩ := hnone
    rw [(h.routed.nets n hn p hhas).1]
    refine ⟨?_, fun net hnet => ?_⟩
    · obtain ⟨i, g, -, hmem, -, hlaid⟩ := h.holds.curr.gpu_of_mem hn
      rw [List.map_map]
      refine List.Nodup.map_on ?_ (List.Nodup.of_map _ (hlaid.shaped.ids_nodup n hmem))
      intro t ht t' ht' heq
      obtain ⟨m, hm⟩ := hlaid.known n hmem t ht
      obtain ⟨m', hm'⟩ := hlaid.known n hmem t' ht'
      have hname : m.name = m'.name := by
        simpa [netOf, hm, hm', Except.toOption] using heq
      have hid : t.id = t'.id := by
        rw [getModelName_ok.mp hm, getModelName_ok.mp hm', hname]
      exact List.inj_on_of_nodup_map (hlaid.shaped.ids_nodup n hmem) ht ht' hid
    · obtain ⟨t, ht, heq⟩ := List.mem_map.mp hnet
      exact ⟨n, hn, hhas, t, ht, heq⟩

/-- A queue of `p` that holds every model at most once, and tasks of `p` whose
nets have a given property. -/
structure QueueOf (P : String × Int → Prop) (p : ProxyInfo) (queue : List TaskSpec) : Prop where
  nodup : (queue.map (·.reqName)).Nodup
  proxy_eq : ∀ spec ∈ queue, spec.proxy = p ∧ spec.deviceID = p.devID
  nets : ∀ spec ∈ queue, P (spec.reqName, spec.batchSize)

section QueueOf

variable {P P' : String × Int → Prop} {queue : List TaskSpec}

theorem QueueOf.mono (h : QueueOf P p queue) (hP : ∀ net, P net → P' net) : QueueOf P' p queue :=
  ⟨h.nodup, h.proxy_eq, fun spec hspec => hP _ (h.nets spec hspec)⟩

theorem QueueOf.tail (h : QueueOf P p (spec :: queue)) : QueueOf P p queue :=
  ⟨(List.nodup_cons.mp h.nodup).2, fun _ hmem => h.proxy_eq _ (List.mem_cons_of_mem _ hmem),
    fun _ hmem => h.nets _ (List.mem_cons_of_mem _ hmem)⟩

/-- A dispatch adds nothing, or fills an empty queue. -/
theorem QueueOf.dispatch {netNames : List String} (h : QueueOf P p (st.perProxyBatchList p))
    (hnodup : ((st.routes.perProxyNetList p).map Prod.fst).Nodup)
    (hnets : ∀ net ∈ st.routes.perProxyNetList p, P net) :
    QueueOf P p (st.perProxyBatchList p ++ specsOf netNames look st p.devID p) := by
  cases hspecs : specsOf netNames look st p.devID p with
  | nil => rwa [List.append_nil]
  | cons spec0 specs0 =>
      have hfirst : spec0 ∈ specsOf netNames look st p.devID p := hspecs ▸ List.mem_cons_self ..
      have hempty := (of_mem_specsOf hfirst).2.2.1
      rw [← hspecs]
      have hnames : ((specsOf netNames look st p.devID p).map (·.reqName)).Nodup := by
        unfold specsOf
        rw [if_pos hempty]
        split
        · exact List.nodup_nil
        · split
          · rw [List.map_map]
            exact hnodup.sublist (List.filter_sublist.map _)
          · exact List.nodup_nil
      rw [hempty, List.nil_append]
      exact ⟨hnames, fun spec hspec => ⟨(of_mem_specsOf hspec).1, (of_mem_specsOf hspec).2.1⟩,
        fun spec hspec => hnets _ (of_mem_specsOf hspec).2.2.2⟩

end QueueOf

/-- The net is that of a task on the node of the proxy. -/
def OnNode (sys : SysMonitor) (st : Running) (p : ProxyInfo) (net : String × Int) : Prop :=
  ∃ n ∈ st.front.currState.nodes, Has sys p n = true ∧ ∃ t ∈ n.vTaskList, netOf t = net

theorem queues_step {P : ProxyInfo → String × Int → Prop} (hserves : Serves nodes s)
    (hlasting : Lasting s (Laid s)) (hinv : Inv s (configureProxys nodes) st)
    (h : ∀ p, QueueOf (P p) p (st.perProxyBatchList p))
    (hstep : Beacons.step s (configureProxys nodes) g e st = some st') (p : ProxyInfo) :
    QueueOf (fun net => P p net ∨ OnNode (configureProxys nodes) st p net) p
      (st'.perProxyBatchList p) := by
  have hold : ∀ q, QueueOf (fun net => P q net ∨ OnNode (configureProxys nodes) st q net) q
      (st.perProxyBatchList q) := fun q => (h q).mono fun _ => Or.inl
  cases e with
  | epoch env fuel =>
      rw [(epoch_inv hserves hlasting hinv (epoch_of_step hstep)).2.1]
      exact hold p
  | dispatch look =>
      obtain rfl := Option.some.inj hstep
      rw [insertAll_eq]
      dsimp only
      rw [dispatched hserves]
      split
      case isFalse =>
        rw [List.append_nil]
        exact hold p
      case isTrue hp =>
        obtain ⟨hnames, hfrom⟩ := hinv.netList hp
        exact (hold p).dispatch hnames fun net hnet => Or.inr (hfrom net hnet)
  | take q =>
      unfold Beacons.step at hstep
      dsimp only at hstep
      split at hstep
      case h_1 => cases hstep
      case h_2 spec0 rest hcons =>
        obtain rfl := Option.some.inj hstep
        dsimp only
        by_cases hq : p = q
        · subst hq
          rw [Function.update_self]
          have htail := hold p
          rw [hcons] at htail
          exact htail.tail
        · rw [Function.update_of_ne hq]
          exact hold p
  | checkLoad model q =>
      obtain rfl := Option.some.inj hstep
      exact hold p
  | shutDown q =>
      obtain rfl := Option.some.inj hstep
      exact hold p

/-- **Queued tasks.** However the threads of the frontend interleave, the queue
of a proxy has at most one task for each model, all for this proxy, and each is
one that a decision had put on the proxy's node when that decision was the
current one. -/
theorem queued_tasks_were_routed {rates : Rates} {table : SatTable} {arivRate : String → ℚ}
    {es : List Event} (hserves : Serves nodes s) (havail : AvailParts s.availParts)
    (hprofile : ProfileRange s) (htab : Built s table)
    (hboot : boot s (configureProxys nodes) g rates table arivRate = .ok st)
    (hrun : Machine.run (step s (configureProxys nodes) g) es st = some st') (p : ProxyInfo) :
    ((st'.perProxyBatchList p).map (·.reqName)).Nodup ∧
      ∀ spec ∈ st'.perProxyBatchList p, spec.proxy = p ∧ spec.deviceID = p.devID ∧
        ∃ before after st1, es = before ++ after ∧
          Machine.run (step s (configureProxys nodes) g) before st = some st1 ∧
          ∃ n ∈ st1.front.currState.nodes, Has (configureProxys nodes) p n = true ∧
            ∃ t ∈ n.vTaskList, netOf t = (spec.reqName, spec.batchSize) := by
  have hlasting := laid_lasting havail hprofile
  obtain ⟨-, hempty, -⟩ := boot_inv hserves hlasting htab hboot
  have hqueues : ∀ p, QueueOf (fun net => ∃ before after st1, es = before ++ after ∧
      Machine.run (step s (configureProxys nodes) g) before st = some st1 ∧
        OnNode (configureProxys nodes) st1 p net) p (st'.perProxyBatchList p) := by
    induction es using List.reverseRecOn generalizing st' with
    | nil =>
        obtain rfl := Option.some.inj hrun
        intro p
        rw [hempty]
        exact ⟨List.nodup_nil, by simp, by simp⟩
    | append_singleton es e ih =>
        obtain ⟨st1, hbefore, hlast⟩ := Machine.run_concat.mp hrun
        have hinv := inv_of_run hserves hlasting htab hboot hbefore
        intro p
        refine (queues_step hserves hlasting hinv (ih hbefore) hlast p).mono ?_
        rintro net (⟨before, after, st2, rfl, hst2, hon⟩ | hon)
        · exact ⟨before, after ++ [e], st2, by rw [List.append_assoc], hst2, hon⟩
        · exact ⟨es, [e], st1, rfl, hbefore, hon⟩
  obtain ⟨hnodup, hproxy, hnets⟩ := hqueues p
  exact ⟨hnodup, fun spec hspec => ⟨(hproxy spec hspec).1, (hproxy spec hspec).2, hnets spec hspec⟩⟩

/-- A task stays in the queue while the decision it comes from is replaced. -/
theorem queued_tasks_were_routed_before :
    ∃ st st', boot oneGPU (configureProxys oneNode) lenetService lenetRates (fun _ => none)
        (fun _ => 0) = .ok st ∧
      Machine.run (step oneGPU (configureProxys oneNode) lenetService)
        [.dispatch waiting, .epoch traffic 1, .epoch traffic 1, .dispatch waiting] st = some st' ∧
      st'.routes.perProxyNetList wholeProxy = [("lenet1", 6)] ∧
      ∃ spec ∈ st'.perProxyBatchList wholeProxy, spec.batchSize = 2 ∧ spec.proxy = wholeProxy := by
  obtain ⟨st, st', hboot, hrun, htest⟩ := oneGPU_runs
    [.dispatch waiting, .epoch traffic 1, .epoch traffic 1, .dispatch waiting]
    (fun st => decide (st.routes.perProxyNetList wholeProxy = [("lenet1", 6)]) &&
      (st.perProxyBatchList wholeProxy).any fun spec => decide (spec.batchSize = 2))
    (by decide +kernel)
  obtain ⟨hnets, hany⟩ := Bool.and_eq_true_iff.mp htest
  obtain ⟨spec, hspec, hbatch⟩ := List.any_eq_true.mp hany
  obtain ⟨-, hqueued⟩ := queued_tasks_were_routed oneGPU_serves oneGPU_avail
    (profileRange_plain _ _ _) .empty hboot hrun wholeProxy
  exact ⟨st, st', hboot, hrun, of_decide_eq_true hnets, spec, hspec, of_decide_eq_true hbatch,
    (hqueued spec hspec).1⟩

/-- Is there a batch of the model to put together? -/
def Ready (netNames : List String) (look : Glimpse) (p : ProxyInfo) (name : String) : Prop :=
  needDecision netNames look name = true ∧ look.isTaskBatching p name = 0 ∧
    look.isTaskExec p name < 2

theorem mem_specsOf {netNames : List String} {j : Int} {net : String × Int} :
    (⟨j, net.1, net.2, p⟩ : TaskSpec) ∈ specsOf netNames look st j p ↔
      look.loadedModels p ≠ [] ∧ st.routes.isSchedulable p = true ∧
        st.perProxyBatchList p = [] ∧ net ∈ st.routes.perProxyNetList p ∧
        needDecision netNames look net.1 = true ∧
        ∃ net' ∈ st.routes.perProxyNetList p, Ready netNames look p net'.1 := by
  have hassign : assignsTask netNames look st.routes p = true ↔
      ∃ net' ∈ st.routes.perProxyNetList p, Ready netNames look p net'.1 := by
    simp only [assignsTask, List.any_eq_true, Bool.and_eq_true, decide_eq_true_eq, Ready]
    refine exists_congr fun net' => and_congr_right fun _ => ?_
    constructor
    · rintro ⟨⟨hlt, hzero⟩, hneed⟩
      exact ⟨hneed, hzero, by omega⟩
    · rintro ⟨hneed, hzero, hlt⟩
      exact ⟨⟨by omega, hzero⟩, hneed⟩
  constructor
  · intro h
    unfold specsOf at h
    split at h
    case isTrue => cases h
    case isFalse hon =>
      push Not at hon
      split at h
      case isFalse => cases h
      case isTrue hempty =>
        split at h
        case isFalse => cases h
        case isTrue hany =>
          obtain ⟨net', hnet', heq⟩ := List.mem_map.mp h
          simp only [TaskSpec.mk.injEq, true_and, and_true] at heq
          obtain rfl : net' = net := Prod.ext heq.1 heq.2
          obtain ⟨hmem, hneed⟩ := List.mem_filter.mp hnet'
          exact ⟨hon.1, by simpa using hon.2, hempty, hmem, hneed, hassign.mp hany⟩
  · rintro ⟨hloaded, hsched, hempty, hmem, hneed, hready⟩
    rw [specsOf, if_neg (by simp [hloaded, hsched]), if_pos hempty, if_pos (hassign.mpr hready)]
    exact List.mem_map.mpr ⟨net, List.mem_filter.mpr ⟨hmem, hneed⟩, rfl⟩

/-- **What a beacon dispatches.** After any steps of the frontend, a beacon
queues a task of a node of the current decision at the node's proxy exactly if
requests wait for its model, the proxy is in use, has models and has emptied its
queue, and a batch can be started for some model of the node. -/
theorem beacon_dispatches {rates : Rates} {table : SatTable} {arivRate : String → ℚ}
    {es : List Event} {st1 : Running} {n : Node} {t : Task} (hserves : Serves nodes s)
    (havail : AvailParts s.availParts) (hprofile : ProfileRange s) (htab : Built s table)
    (hboot : boot s (configureProxys nodes) g rates table arivRate = .ok st)
    (hrun : Machine.run (step s (configureProxys nodes) g) es st = some st1)
    (hstep : step s (configureProxys nodes) g (.dispatch look) st1 = some st')
    (hn : n ∈ st1.front.currState.nodes) (ht : t ∈ n.vTaskList) :
    ∃ p, getProxyInfo (configureProxys nodes) n.id n.resourcePntg n.dedupNum = some p ∧
      (⟨n.id, (netOf t).1, t.batchSize, p⟩ ∈ (st'.perProxyBatchList p).drop
          (st1.perProxyBatchList p).length ↔
        needDecision g.netNames look (netOf t).1 = true ∧
        st1.routes.isSchedulable p = true ∧ look.loadedModels p ≠ [] ∧
        st1.perProxyBatchList p = [] ∧
        ∃ u ∈ n.vTaskList, Ready g.netNames look p (netOf u).1) := by
  have hinv := inv_of_run hserves (laid_lasting havail hprofile) htab hboot hrun
  obtain ⟨p, hp⟩ := hinv.routed.found n hn
  have hnets := (hinv.routed.nets n hn p hp).1
  have hmem : p ∈ allProxys (configureProxys nodes) := mem_allProxys (of_decide_eq_true hp)
  have hdev : p.devID = n.id := (Has.found hserves.homed hp).1
  have hadded : (st'.perProxyBatchList p).drop (st1.perProxyBatchList p).length =
      specsOf g.netNames look st1 p.devID p := by
    obtain rfl := Option.some.inj hstep
    rw [insertAll_eq]
    dsimp only
    rw [dispatched hserves, if_pos hmem, List.drop_left]
  have hspec : (⟨p.devID, (netOf t).1, (netOf t).2, p⟩ : TaskSpec) ∈
      specsOf g.netNames look st1 p.devID p ↔ _ := mem_specsOf
  refine ⟨p, of_decide_eq_true hp, ?_⟩
  rw [hadded, ← hdev, show t.batchSize = (netOf t).2 from rfl, hspec, hnets]
  have hin : netOf t ∈ n.vTaskList.map netOf := List.mem_map_of_mem ht
  have hready : (∃ net' ∈ n.vTaskList.map netOf, Ready g.netNames look p net'.1) ↔
      ∃ u ∈ n.vTaskList, Ready g.netNames look p (netOf u).1 := by
    simp
  rw [hready]
  constructor
  · rintro ⟨hloaded, hsched, hempty, -, hneed, hwaiting⟩
    exact ⟨hneed, hsched, hloaded, hempty, hwaiting⟩
  · rintro ⟨hneed, hsched, hloaded, hempty, hwaiting⟩
    exact ⟨hloaded, hsched, hempty, hin, hneed, hwaiting⟩

/-- The first beacon queues a task of the only node. -/
theorem beacon_dispatches_first :
    ∃ st st', boot oneGPU (configureProxys oneNode) lenetService lenetRates (fun _ => none)
        (fun _ => 0) = .ok st ∧
      step oneGPU (configureProxys oneNode) lenetService (.dispatch waiting) st = some st' ∧
      ∃ n ∈ st.front.currState.nodes, ∃ t ∈ n.vTaskList, ∃ p,
        ⟨n.id, (netOf t).1, t.batchSize, p⟩ ∈ (st'.perProxyBatchList p).drop
          (st.perProxyBatchList p).length := by
  obtain ⟨st, st1, hboot, hrun, htest⟩ := oneGPU_runs []
    (fun st => st.front.currState.nodes.any (fun n => n.vTaskList.any fun t =>
      decide (netOf t = ("lenet1", t.batchSize)) &&
        decide (getProxyInfo (configureProxys oneNode) n.id n.resourcePntg n.dedupNum =
          some wholeProxy)) && st.routes.isSchedulable wholeProxy)
    (by decide +kernel)
  obtain ⟨hnode, hsched⟩ := Bool.and_eq_true_iff.mp htest
  obtain ⟨n, hn, htask⟩ := List.any_eq_true.mp hnode
  obtain ⟨t, ht, htest⟩ := List.any_eq_true.mp htask
  obtain ⟨hnet, hproxy⟩ := Bool.and_eq_true_iff.mp htest
  obtain rfl := Option.some.inj hrun
  have hempty : st.perProxyBatchList wholeProxy = [] := by
    rw [(boot_inv oneGPU_serves (laid_lasting oneGPU_avail (profileRange_plain _ _ _)) .empty
      hboot).2.1]
  have hstep : step oneGPU (configureProxys oneNode) lenetService (.dispatch waiting) st =
    some _ := rfl
  obtain ⟨p, hp, hiff⟩ := beacon_dispatches oneGPU_serves oneGPU_avail
    (profileRange_plain _ _ _) .empty hboot hrun hstep hn ht
  obtain rfl : p = wholeProxy := Option.some.inj (hp.symm.trans (of_decide_eq_true hproxy))
  refine ⟨st, _, hboot, hstep, n, hn, t, ht, wholeProxy, hiff.mpr ?_⟩
  have hready : needDecision lenetService.netNames waiting (netOf t).1 = true := by
    rw [of_decide_eq_true hnet]
    show needDecision lenetService.netNames waiting "lenet1" = true
    decide
  exact ⟨hready, hsched, by simp [waiting], hempty, t, ht, hready, rfl, by simp [waiting]⟩

end Glet.Devices.Beacons
