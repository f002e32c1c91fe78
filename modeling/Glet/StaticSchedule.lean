import Glet.Beacons
import Glet.ScheduleFile

/-!
# Static schedules

With a static scheduler the frontend makes no decision: it reads one the
standalone scheduler has written, and `setupProxyTaskList` fills the net lists,
the duty cycles and the load balancer from the file.

A decision that is laid out survives the way through the file: the tables are
those that routing the decision itself would leave, except that duty cycles
have six decimals (`static_schedule_routed`).
-/

namespace Glet.Devices.StaticSchedule

open Unload Routing Beacons ScheduleFile FixedPoint

/-! ## Setting up -/

/-- `mapping_trps`, the keys in the order they came. -/
abbrev MappingTrps := List (ProxyInfo × List (Int × ℚ))

/-- `mapping_trps[ptemp].push_back(t2)`. -/
def pushTrp (p : ProxyInfo) (item : Int × ℚ) : MappingTrps → MappingTrps
  | [] => [(p, [item])]
  | (q, items) :: rest =>
      if q = p then (q, items ++ [item]) :: rest else (q, items) :: pushTrp p item rest

/-- What `setupProxyTaskList` writes. -/
structure StaticSetup where
  routes : Routes
  isReserved : ProxyInfo → Bool
  mappingTrps : MappingTrps

def StaticSetup.initial (type : LoadBalancerType) : StaticSetup :=
  ⟨.initial type, fun _ => false, []⟩

def lookUp (sys : SysMonitor) (it : TaskConfig) : Query ProxyInfo :=
  match getProxyInfo sys it.nodeId.toInt it.threadCap.toInt it.dedupNum.toInt with
  | some p => .ok p
  | none => .error .assertion

/-- A turn of the loop that is not for a reserved partition. -/
def StaticSetup.withConfig (st : StaticSetup) (p : ProxyInfo) (net : String × Int) (duty : ℚ)
    (item : Int × ℚ) : StaticSetup :=
  { st with
    routes := { st.routes.insertNetToProxyNetList p net with
      isSchedulable := Function.update st.routes.isSchedulable p true
      dutyCycle := Function.update st.routes.dutyCycle p duty }
    mappingTrps := pushTrp p item st.mappingTrps }

/-- One turn of the loop. The longer of duty cycle and estimated latency is
computed too, but not used. -/
def setupConfig (s : Scheduler) (sys : SysMonitor) (typeOf : ProxyInfo → DeviceType)
    (st : StaticSetup) (it : TaskConfig) : Query StaticSetup := do
  let p ← lookUp sys it
  if it.name = "reserved" then
    return { st with isReserved := Function.update st.isReserved p true }
  else do
    let _ ← s.getLatency (typeOf p) (getModelID it.name) it.batchSize.toInt it.threadCap.toInt
    let rate ← fdiv 1000 it.dutyCycle
    return st.withConfig p (it.name, it.batchSize.toInt) it.dutyCycle
      (getModelID it.name, it.batchSize.toInt * rate)

/-- What the load balancer reads of a table of throughputs. -/
def balancerTrps (trps : MappingTrps) : List (Glet.ProxyInfo × List (Int × ℚ)) :=
  trps.map fun pair => (⟨pair.1.devID, pair.1.cap, pair.1.dedupNum⟩, pair.2)

/-- `setupProxyTaskList` on the contents of the file. `mapping_trps` is a map
from addresses: `byAddress` puts it in their order. -/
def setupProxyTaskList (s : Scheduler) (sys : SysMonitor) (typeOf : ProxyInfo → DeviceType)
    (byAddress : MappingTrps → MappingTrps) (specfile : List Char) (st : StaticSetup) :
    Query StaticSetup :=
  match readFile (Int32.ofInt sys.nGPUs) specfile with
  | .error .assertion => .error .assertion
  | .error .invalidArgument => .error .badAccess
  | .ok list => do
      let st ← list.foldlM (setupConfig s sys typeOf) st
      return { st with routes := { st.routes with
        loadBalancer :=
          st.routes.loadBalancer.updateTableTrps (balancerTrps (byAddress st.mappingTrps)) } }

/-! ## The throughputs -/

variable {s : Scheduler} {sys : SysMonitor} {typeOf : ProxyInfo → DeviceType} {p q : ProxyInfo}
  {n : Node} {sim : SimState} {st : StaticSetup} {trps : MappingTrps} {item : Int × ℚ}

/-- The proxy has an entry in the table. -/
def Pushed (trps : MappingTrps) (p : ProxyInfo) (item : Int × ℚ) : Prop :=
  ∃ items, (p, items) ∈ trps ∧ item ∈ items

theorem not_pushed_nil : ¬ Pushed [] p item := by
  rintro ⟨items, h, -⟩
  cases h

theorem pushed_cons {items : List (Int × ℚ)} :
    Pushed ((q, items) :: trps) p item ↔ (p = q ∧ item ∈ items) ∨ Pushed trps p item := by
  simp only [Pushed, List.mem_cons, Prod.mk.injEq, or_and_right, exists_or]
  refine or_congr ⟨?_, ?_⟩ Iff.rfl
  · rintro ⟨items', ⟨rfl, rfl⟩, h⟩
    exact ⟨rfl, h⟩
  · rintro ⟨rfl, h⟩
    exact ⟨items, ⟨rfl, rfl⟩, h⟩

theorem pushed_pushTrp {item' : Int × ℚ} :
    Pushed (pushTrp p item trps) q item' ↔ Pushed trps q item' ∨ (q = p ∧ item' = item) := by
  induction trps with
  | nil => simp [pushTrp, pushed_cons, not_pushed_nil]
  | cons pair rest ih =>
      obtain ⟨q', items⟩ := pair
      unfold pushTrp
      split
      case isTrue heq =>
        rw [pushed_cons, pushed_cons, List.mem_append, List.mem_singleton, heq]
        tauto
      case isFalse =>
        rw [pushed_cons, pushed_cons, ih]
        tauto

theorem pushed_perm {trps' : MappingTrps} (h : trps'.Perm trps) :
    Pushed trps' p item ↔ Pushed trps p item :=
  exists_congr fun _ => and_congr_left' h.mem_iff

/-- A ticket for each entry. -/
theorem mem_balancerTrps {e : Ticket} : e ∈ LoadBalancer.trpTickets (balancerTrps trps) ↔
    ∃ p item, Pushed trps p item ∧ e = (item.1, ⟨p.devID, p.cap, p.dedupNum⟩, item.2) := by
  simp only [LoadBalancer.trpTickets, balancerTrps, List.mem_flatMap, List.mem_map]
  constructor
  · rintro ⟨pair, ⟨⟨p, items⟩, hpair, rfl⟩, item, hitem, rfl⟩
    exact ⟨p, item, ⟨items, hpair, hitem⟩, rfl⟩
  · rintro ⟨p, item, ⟨items, hpair, hitem⟩, rfl⟩
    exact ⟨_, ⟨(p, items), hpair, rfl⟩, item, hitem, rfl⟩

/-! ## The lines of a node -/

/-- A node with its duty cycle as it stands in the file. -/
def sixDecimalNode (s : Scheduler) (n : Node) : Node :=
  { n with dutyCycle := some (sixDecimals (s.dutyOf n)) }

def configOf (n : Node) (name : String) (batchSize : Int) (dutyCycle : ℚ) : TaskConfig where
  nodeId := Int32.ofNat n.id
  dedupNum := Int32.ofInt n.dedupNum
  threadCap := Int32.ofInt n.resourcePntg
  name := name
  batchSize := Int32.ofInt batchSize
  dutyCycle := dutyCycle

/-- The lines of a node whose tasks have models. -/
def linesOf (s : Scheduler) (n : Node) : List TaskConfig :=
  if n.vTaskList = [] then [configOf n "reserved" maxBatch 0]
  else n.vTaskList.map fun t => configOf n (netOf t).1 t.batchSize (s.dutyOf n)

theorem linesOf_ne_nil (s : Scheduler) (n : Node) : linesOf s n ≠ [] := by
  unfold linesOf
  split
  case isTrue => exact List.cons_ne_nil _ _
  case isFalse h => exact fun hnil => h (List.map_eq_nil_iff.mp hnil)

theorem modelName_eq (m : Model) : modelName m = m.name := by
  cases m <;> rfl

theorem netOf_known {t : Task} {m : Model} (h : getModelName t.id = .ok m) :
    netOf t = (m.name, t.batchSize) := by
  simp [netOf, h, Except.toOption]

theorem mapM_eq_map {α β ε : Type} {f : α → Except ε β} {g : α → β} {as : List α}
    (h : ∀ a ∈ as, f a = .ok (g a)) : as.mapM f = .ok (as.map g) := by
  induction as with
  | nil => rfl
  | cons a as ih =>
      rw [List.mapM_cons, h a (List.mem_cons_self ..),
        ih fun a' ha' => h a' (List.mem_cons_of_mem a ha')]
      rfl

theorem nodeConfigs_known (h : ∀ t ∈ n.vTaskList, Known t) :
    nodeConfigs s n = .ok (linesOf s n) := by
  unfold nodeConfigs linesOf
  split
  case isTrue => rfl
  case isFalse =>
    refine mapM_eq_map fun t ht => ?_
    obtain ⟨m, hm⟩ := h t ht
    rw [hm, netOf_known hm, ← modelName_eq]
    rfl

theorem sixDecimals_pos {x : ℚ} (h : 1 / 1000000 ≤ x) : 0 < sixDecimals x := by
  have hone : (1 : ℚ) ≤ x * 1000000 := by linarith
  have hfloor : 1 ≤ ⌊x * 1000000⌋ := Int.le_floor.mpr (by exact_mod_cast hone)
  have hround : 0 < roundHalfEven (x * 1000000) := by
    rw [roundHalfEven]
    split_ifs <;> omega
  rw [sixDecimals]
  have hcast : (0 : ℚ) < roundHalfEven (x * 1000000) := by exact_mod_cast hround
  positivity

/-- What the file needs of a node: its numbers are `int`s, a duty cycle does not
vanish in six decimals, and the latency tables have its tasks. -/
structure Readable (s : Scheduler) (typeOf : ProxyInfo → DeviceType) (p : ProxyInfo) (n : Node) :
    Prop where
  id_lt : n.id < 2 ^ 31
  part : 0 < n.resourcePntg ∧ n.resourcePntg ≤ 100
  dedup : n.dedupNum = 0 ∨ n.dedupNum = 1
  known : ∀ t ∈ n.vTaskList, Known t
  duty : n.vTaskList ≠ [] → 1 / 1000000 ≤ s.dutyOf n
  answered : ∀ t ∈ n.vTaskList, ∃ l,
    s.getLatency (typeOf p) t.id t.batchSize n.resourcePntg = .ok l

theorem toInt_ofInt_small {z : Int} (h0 : -2147483648 ≤ z) (h1 : z < 2147483648) :
    (Int32.ofInt z).toInt = z := by
  refine Int32.toInt_ofInt_of_le ?_ ?_
  · exact h0
  · exact h1

theorem toInt_ofNat_small {k : Nat} (h : k < 2147483648) : (Int32.ofNat k).toInt = k :=
  Int32.toInt_ofNat_of_lt h

theorem Readable.batch (h : Readable s typeOf p n) {t : Task} (ht : t ∈ n.vTaskList) :
    1 ≤ t.batchSize ∧ t.batchSize ≤ maxBatch := by
  obtain ⟨l, hl⟩ := h.answered t ht
  unfold Scheduler.getLatency at hl
  obtain ⟨-, -, hl⟩ := Query.bind_ok.mp hl
  obtain ⟨u, hassert, -⟩ := Query.bind_ok.mp hl
  exact assert_ok.mp hassert

/-- The line of a node is looked up as the node itself. -/
theorem Readable.lookUp_eq (h : Readable s typeOf p n) (hp : Has sys p n = true) (name : String)
    (batchSize : Int) (duty : ℚ) : lookUp sys (rounded (configOf n name batchSize duty)) = .ok p := by
  have hid : (Int32.ofNat n.id).toInt = n.id := toInt_ofNat_small h.id_lt
  have hpart : (Int32.ofInt n.resourcePntg).toInt = n.resourcePntg :=
    toInt_ofInt_small (by have := h.part; omega) (by have := h.part; omega)
  have hdedup : (Int32.ofInt n.dedupNum).toInt = n.dedupNum :=
    toInt_ofInt_small (by have := h.dedup; omega) (by have := h.dedup; omega)
  simp only [lookUp, rounded, configOf, hid, hpart, hdedup]
  exact proxyOf_ok.mpr hp

/-- The setup after a task. -/
def StaticSetup.withTask (s : Scheduler) (p : ProxyInfo) (n : Node) (st : StaticSetup) (t : Task) :
    StaticSetup :=
  st.withConfig p (netOf t) (sixDecimals (s.dutyOf n))
    (t.id, t.batchSize * (1000 / sixDecimals (s.dutyOf n)))

theorem Readable.setup_task (h : Readable s typeOf p n) (hp : Has sys p n = true) {t : Task}
    (ht : t ∈ n.vTaskList) :
    setupConfig s sys typeOf st (rounded (configOf n (netOf t).1 t.batchSize (s.dutyOf n))) =
      .ok (st.withTask s p n t) := by
  obtain ⟨m, hm⟩ := h.known t ht
  obtain ⟨l, hl⟩ := h.answered t ht
  have hbatch : (Int32.ofInt t.batchSize).toInt = t.batchSize := by
    have hrange := h.batch ht
    rw [maxBatch] at hrange
    exact toInt_ofInt_small (by omega) (by omega)
  have hpart : (Int32.ofInt n.resourcePntg).toInt = n.resourcePntg :=
    toInt_ofInt_small (by have := h.part; omega) (by have := h.part; omega)
  have hname : m.name ≠ "reserved" := by
    cases m <;> decide
  have hid : getModelID m.name = t.id := (getModelName_ok.mp hm).symm
  have hdiv : fdiv 1000 (sixDecimals (s.dutyOf n)) = .ok (1000 / sixDecimals (s.dutyOf n)) :=
    fdiv_ok.mpr ⟨ne_of_gt (sixDecimals_pos (h.duty (List.ne_nil_of_mem ht))), rfl⟩
  rw [setupConfig, h.lookUp_eq hp]
  simp only [rounded, configOf, netOf_known hm, hname, hbatch, hpart, hid, hl, hdiv, if_false,
    bind, Except.bind, pure, Except.pure, StaticSetup.withTask]

theorem Readable.setup_reserved (h : Readable s typeOf p n) (hp : Has sys p n = true) :
    setupConfig s sys typeOf st (rounded (configOf n "reserved" maxBatch 0)) =
      .ok { st with isReserved := Function.update st.isReserved p true } := by
  rw [setupConfig, h.lookUp_eq hp]
  rfl

theorem routes_withTasks {ts : List Task} (h : ts ≠ []) :
    (ts.foldl (StaticSetup.withTask s p n) st).routes =
      st.routes.withNode s p { sixDecimalNode s n with vTaskList := ts } := by
  induction ts using List.reverseRecOn with
  | nil => exact absurd rfl h
  | append_singleton ts t ih =>
      rw [List.foldl_append, List.foldl_cons, List.foldl_nil, StaticSetup.withTask]
      have hduty : ∀ ts, s.dutyOf { sixDecimalNode s n with vTaskList := ts } =
          sixDecimals (s.dutyOf n) := fun _ => rfl
      by_cases hts : ts = []
      · simp only [hts, List.foldl_nil, List.nil_append, StaticSetup.withConfig, Routes.withNode,
          hduty, Routes.insertNetToProxyNetList, Routes.insertNets, List.cons_ne_nil, if_false,
          List.map_cons, List.map_nil]
      · simp only [StaticSetup.withConfig, ih hts, Routes.withNode, hts, h, hduty, if_false,
          Routes.insertNetToProxyNetList, Routes.insertNets, Function.update_idem,
          Function.update_self, List.map_append, List.map_cons, List.map_nil, List.append_assoc]

theorem isReserved_withTasks (ts : List Task) :
    (ts.foldl (StaticSetup.withTask s p n) st).isReserved = st.isReserved := by
  induction ts generalizing st with
  | nil => rfl
  | cons t ts ih => exact ih

theorem pushed_withTasks (ts : List Task) :
    Pushed (ts.foldl (StaticSetup.withTask s p n) st).mappingTrps q item ↔
      Pushed st.mappingTrps q item ∨ (q = p ∧ ∃ t ∈ ts,
        item = (t.id, t.batchSize * (1000 / sixDecimals (s.dutyOf n)))) := by
  induction ts generalizing st with
  | nil => simp
  | cons t ts ih =>
      rw [List.foldl_cons, ih]
      simp only [StaticSetup.withTask, StaticSetup.withConfig, pushed_pushTrp, List.mem_cons]
      constructor
      · rintro ((h | ⟨hq, h⟩) | ⟨hq, t', ht', h⟩)
        · exact Or.inl h
        · exact Or.inr ⟨hq, t, Or.inl rfl, h⟩
        · exact Or.inr ⟨hq, t', Or.inr ht', h⟩
      · rintro (h | ⟨hq, t', rfl | ht', h⟩)
        · exact Or.inl (Or.inl h)
        · exact Or.inl (Or.inr ⟨hq, h⟩)
        · exact Or.inr ⟨hq, t', ht', h⟩

/-! ## A node -/

/-- The setup after a node that has the proxy. -/
structure AfterNode (s : Scheduler) (p : ProxyInfo) (n : Node) (st st' : StaticSetup) : Prop where
  routes : st'.routes = st.routes.withNode s p (sixDecimalNode s n)
  isReserved : ∀ q, st'.isReserved q =
    (st.isReserved q || (decide (q = p) && n.vTaskList.isEmpty))
  pushed : ∀ q item, Pushed st'.mappingTrps q item ↔ Pushed st.mappingTrps q item ∨
    (q = p ∧ ∃ t ∈ n.vTaskList, item = (t.id, t.batchSize * (1000 / sixDecimals (s.dutyOf n))))

theorem Readable.setup_tasks (h : Readable s typeOf p n) (hp : Has sys p n = true) {ts : List Task}
    (hts : ∀ t ∈ ts, t ∈ n.vTaskList) :
    ((ts.map fun t => configOf n (netOf t).1 t.batchSize (s.dutyOf n)).map rounded).foldlM
      (setupConfig s sys typeOf) st = .ok (ts.foldl (StaticSetup.withTask s p n) st) := by
  induction ts generalizing st with
  | nil => rfl
  | cons t ts ih =>
      rw [List.map_cons, List.map_cons, List.foldlM_cons,
        h.setup_task hp (hts t (List.mem_cons_self ..))]
      exact ih fun t' ht' => hts t' (List.mem_cons_of_mem t ht')

theorem Readable.setup_node (h : Readable s typeOf p n) (hp : Has sys p n = true)
    (st : StaticSetup) :
    ∃ st', ((linesOf s n).map rounded).foldlM (setupConfig s sys typeOf) st = .ok st' ∧
      AfterNode s p n st st' := by
  unfold linesOf
  split
  case isTrue hnil =>
    have hreserved : [rounded (configOf n "reserved" maxBatch 0)].foldlM (setupConfig s sys typeOf)
        st = .ok { st with isReserved := Function.update st.isReserved p true } := by
      rw [List.foldlM_cons, h.setup_reserved hp]
      rfl
    refine ⟨_, hreserved, ?_, fun q => ?_, fun q item => ?_⟩
    · rw [Routes.withNode]
      exact (if_pos hnil).symm
    · by_cases hq : q = p
      · simp [hq, hnil]
      · simp [hq]
    · simp [hnil]
  case isFalse hne =>
    refine ⟨_, h.setup_tasks hp fun _ ht => ht, ?_, fun q => ?_, fun q item => ?_⟩
    · exact routes_withTasks hne
    · simp [isReserved_withTasks, hne]
    · exact pushed_withTasks _

/-! ## All nodes -/

/-- The lines of nodes leave what routing them leaves, with an entry for each
task. -/
theorem setup_nodes {ns : List Node}
    (h : ∀ n ∈ ns, ∃ p, Has sys p n = true ∧ Readable s typeOf p n) (st : StaticSetup) :
    ∃ st', ((ns.map (linesOf s)).flatten.map rounded).foldlM (setupConfig s sys typeOf) st = .ok st' ∧
      (ns.map (sixDecimalNode s)).foldlM (routeNode s sys) st.routes = .ok st'.routes ∧
      (∀ q, st'.isReserved q = (st.isReserved q ||
        ns.any fun n => Has sys q n && n.vTaskList.isEmpty)) ∧
      ∀ q item, Pushed st'.mappingTrps q item ↔ Pushed st.mappingTrps q item ∨
        ∃ n ∈ ns, Has sys q n = true ∧ ∃ t ∈ n.vTaskList,
          item = (t.id, t.batchSize * (1000 / sixDecimals (s.dutyOf n))) := by
  induction ns generalizing st with
  | nil => exact ⟨st, rfl, rfl, by simp, by simp⟩
  | cons n ns ih =>
      obtain ⟨p, hp, hread⟩ := h n (List.mem_cons_self ..)
      obtain ⟨st1, hfirst, hafter⟩ := hread.setup_node hp st
      obtain ⟨st', hrest, hroutes, hreserved, hpushed⟩ :=
        ih (fun n' hn' => h n' (List.mem_cons_of_mem n hn')) st1
      have hone : ∀ q, Has sys q n = decide (q = p) := by
        intro q
        rw [Has] at hp ⊢
        rw [of_decide_eq_true hp]
        simp [eq_comm]
      refine ⟨st', ?_, ?_, fun q => ?_, fun q item => ?_⟩
      · rw [List.map_cons, List.flatten_cons, List.map_append, List.foldlM_append, hfirst]
        exact hrest
      · have hroute : routeNode s sys st.routes (sixDecimalNode s n) = .ok st1.routes := by
          rw [hafter.routes]
          exact routeNode_known (proxyOf_ok.mpr hp) hread.known
        rw [List.map_cons, List.foldlM_cons, hroute]
        exact hroutes
      · rw [hreserved, hafter.isReserved, List.any_cons, hone, Bool.or_assoc]
      · rw [hpushed, hafter.pushed]
        simp only [List.mem_cons, exists_eq_or_imp, hone, decide_eq_true_eq, or_assoc]

/-! ## The decision in the file -/

/-- A decision with its duty cycles as they stand in the file. -/
def sixDecimalState (s : Scheduler) (sim : SimState) : SimState :=
  { sim with vGPUList := sim.vGPUList.map fun g =>
      { g with vNodeList := g.vNodeList.map (sixDecimalNode s) } }

theorem nodes_sixDecimalState :
    (sixDecimalState s sim).nodes = sim.nodes.map (sixDecimalNode s) := by
  simp only [sixDecimalState, SimState.nodes, List.flatMap_map, List.map_flatMap]

theorem tickets_sixDecimalState : (sixDecimalState s sim).tickets = sim.tickets := by
  simp only [sixDecimalState, SimState.tickets, List.flatMap_map]
  rfl

theorem laidGPU_sixDecimals {parts : List Int} {i : Nat} {g : GPU} (h : LaidGPU parts i g) :
    LaidGPU parts i { g with vNodeList := g.vNodeList.map (sixDecimalNode s) } := by
  obtain ⟨⟨hgpu, hid, hsplit, hnodup⟩, hoffered, hknown⟩ := h
  refine ⟨⟨hgpu, ?_, ?_, ?_⟩, ?_, ?_⟩
  · intro n' hn'
    obtain ⟨n, hn, rfl⟩ := List.mem_map.mp hn'
    exact hid n hn
  · rw [List.map_map]
    exact hsplit
  · intro n' hn'
    obtain ⟨n, hn, rfl⟩ := List.mem_map.mp hn'
    exact hnodup n hn
  · intro n' hn'
    obtain ⟨n, hn, rfl⟩ := List.mem_map.mp hn'
    exact hoffered n hn
  · intro n' hn'
    obtain ⟨n, hn, rfl⟩ := List.mem_map.mp hn'
    exact hknown n hn

theorem laid_sixDecimalState (h : Laid s sim) : Laid s (sixDecimalState s sim) := by
  refine ⟨fun i g' hg' => ?_, ?_⟩
  · rw [sixDecimalState, List.getElem?_map] at hg'
    obtain ⟨g, hg, rfl⟩ := Option.map_eq_some_iff.mp hg'
    exact laidGPU_sixDecimals (h.gpus i g hg)
  · rw [sixDecimalState, List.length_map]
    exact h.length_le

/-- A schedule the frontend can read: the latency tables have every task, and no
duty cycle vanishes in six decimals. -/
structure Usable (s : Scheduler) (sys : SysMonitor) (typeOf : ProxyInfo → DeviceType)
    (sim : SimState) : Prop where
  duty : ∀ n ∈ sim.nodes, n.vTaskList ≠ [] → 1 / 1000000 ≤ s.dutyOf n
  answered : ∀ n ∈ sim.nodes, ∀ t ∈ n.vTaskList, ∀ p, Has sys p n = true →
    ∃ l, s.getLatency (typeOf p) t.id t.batchSize n.resourcePntg = .ok l

theorem part_of_split {l : List (Int × Int)} (h : Split l) {k : Int × Int} (hk : k ∈ l) :
    0 < k.1 ∧ k.1 ≤ 100 := by
  cases h with
  | whole =>
      rw [List.mem_singleton.mp hk]
      decide
  | @parts p h0 h1 =>
      rcases List.mem_pair.mp hk with rfl | rfl
      · exact ⟨h0, by omega⟩
      · exact ⟨by omega, by omega⟩

theorem Usable.readable {nodes : List BackendNode} (h : Usable s (configureProxys nodes) typeOf sim)
    (hlaid : Laid s sim) (hserves : Serves nodes s) (hsize : (configureProxys nodes).nGPUs < 2 ^ 31)
    (hn : n ∈ sim.nodes) : ∃ p, Has (configureProxys nodes) p n = true ∧ Readable s typeOf p n := by
  obtain ⟨p, hp⟩ := hlaid.exists_proxy hserves hn
  obtain ⟨i, g, hi, hmem, hid, hgpu⟩ := hlaid.gpu_of_mem hn
  have hlt := (List.getElem?_eq_some_iff.mp hi).1
  have hle := hlaid.length_le
  have hgpus := hserves.gpus
  have hkey := List.mem_map_of_mem (f := Node.key) hmem
  have hdedup := dedup_of_split hgpu.shaped.split hkey
  refine ⟨p, hp, by omega, part_of_split hgpu.shaped.split hkey, ?_, hlaid.known hn, h.duty n hn,
    fun t ht => h.answered n hn t ht p hp⟩
  exact hdedup.imp_right fun h => h.2

/-! ## Writing and reading -/

theorem int32_lt {a b : Nat} (hb : b < 2147483648) (h : a < b) : Int32.ofNat a < Int32.ofNat b := by
  rw [Int32.lt_iff_toInt_lt, toInt_ofNat_small hb, toInt_ofNat_small (h.trans hb)]
  exact Int.ofNat_lt.mpr h

/-- The writer takes every line of the node. -/
theorem Readable.accepted (h : Readable s typeOf p n) {nGPU : Nat} (hid : n.id < nGPU)
    (hsize : nGPU < 2147483648) {c : TaskConfig} (hc : c ∈ linesOf s n) :
    accepts (Int32.ofNat nGPU) c = true ∧ Plain c.name := by
  have hpart : (Int32.ofInt n.resourcePntg).toInt = n.resourcePntg :=
    toInt_ofInt_small (by have := h.part; omega) (by have := h.part; omega)
  have hnode : 0 ≤ Int32.ofNat n.id ∧ Int32.ofNat n.id < Int32.ofNat nGPU := by
    refine ⟨?_, int32_lt hsize hid⟩
    rw [Int32.le_iff_toInt_le, toInt_ofNat_small (hid.trans hsize)]
    exact Int.natCast_nonneg _
  have hcap : 0 < Int32.ofInt n.resourcePntg ∧ Int32.ofInt n.resourcePntg ≤ 100 := by
    rw [Int32.lt_iff_toInt_lt, Int32.le_iff_toInt_le, hpart]
    exact h.part
  have hline : ∀ {name : String} {batchSize : Int} {duty : ℚ}, 0 < batchSize → batchSize ≤ maxBatch →
      0 ≤ duty → accepts (Int32.ofNat nGPU) (configOf n name batchSize duty) = true := by
    intro name batchSize duty hpos hle hduty
    have hbatch : Int32.ofInt batchSize ≠ 0 := by
      intro hzero
      have hint := congrArg Int32.toInt hzero
      rw [maxBatch] at hle
      rw [toInt_ofInt_small (by omega) (by omega)] at hint
      exact absurd hint (ne_of_gt hpos)
    simp [accepts, addResults, configOf, hnode, hcap, hbatch, not_lt.mpr hduty]
  unfold linesOf at hc
  split at hc
  case isTrue =>
    obtain rfl := List.mem_singleton.mp hc
    have hreserved : Plain "reserved" := ⟨by decide, by decide, by decide⟩
    exact ⟨hline (by decide) le_rfl le_rfl, hreserved⟩
  case isFalse hne =>
    obtain ⟨t, ht, rfl⟩ := List.mem_map.mp hc
    obtain ⟨hpos, hle⟩ := h.batch ht
    obtain ⟨m, hm⟩ := h.known t ht
    refine ⟨hline (by omega) hle ?_, ?_⟩
    · have hduty := h.duty (List.ne_nil_of_mem ht)
      linarith
    · show Plain (netOf t).1
      rw [netOf_known hm, ← modelName_eq]
      exact modelName_plain m

/-- Written out and read back, the lines of nodes are as they were, with six
decimals. -/
theorem read_written {nGPU nGPUs : Int32} (hpos : 0 < nGPUs) {cs : List TaskConfig}
    (hne : cs ≠ []) (h : ∀ c ∈ cs, accepts nGPU c = true ∧ Plain c.name) :
    ∃ text, writeFile nGPU cs = .ok text ∧ readFile nGPUs text = .ok (cs.map rounded) := by
  obtain ⟨c, hc⟩ := List.exists_mem_of_ne_nil cs hne
  have hpos' := (accepts_spec (h c hc).1).1
  have hall : cs.filter (accepts nGPU) = cs := List.filter_eq_self.mpr fun c hc => (h c hc).1
  refine ⟨cs.flatMap fun c => printConfig c ++ ['\n'], ?_, ?_⟩
  · simp only [writeFile, openWriter, if_pos hpos', bind, Except.bind, writeResults, addAll_eq,
      List.nil_append, hall, if_neg hne]
  · have hlines : cs.flatMap (fun c => printConfig c ++ ['\n']) =
        (cs.map printConfig).flatMap fun l => l ++ ['\n'] := by
      rw [List.flatMap_map]
    rw [readFile, if_pos hpos, hlines, fileLines_lines]
    · exact mapM_readConfig fun c hc =>
        readConfig_printConfig (h c hc).2 (accepts_spec (h c hc).1).2
    · intro l hl
      obtain ⟨c, hc, rfl⟩ := List.mem_map.mp hl
      exact notMem_printConfig (h c hc).2

/-! ## The load balancer -/

theorem registered_of_pairs {tickets tickets' : List Ticket} {lb : LoadBalancer}
    (h : LoadBalancer.Registered tickets lb)
    (hpairs : ∀ m k, (∃ e ∈ tickets, e.1 = m ∧ e.2.1 = k) ↔ ∃ e ∈ tickets', e.1 = m ∧ e.2.1 = k) :
    LoadBalancer.Registered tickets' lb := by
  have hsame : ∀ Q : Int → Glet.ProxyInfo → Prop,
      (∃ e ∈ tickets, Q e.1 e.2.1) ↔ ∃ e ∈ tickets', Q e.1 e.2.1 := by
    intro Q
    constructor
    · rintro ⟨e, he, hQ⟩
      obtain ⟨e', he', h1, h2⟩ := (hpairs e.1 e.2.1).mp ⟨e, he, rfl, rfl⟩
      exact ⟨e', he', by rwa [h1, h2]⟩
    · rintro ⟨e, he, hQ⟩
      obtain ⟨e', he', h1, h2⟩ := (hpairs e.1 e.2.1).mpr ⟨e, he, rfl, rfl⟩
      exact ⟨e', he', by rwa [h1, h2]⟩
  refine ⟨h.wrr, fun m k => ?_, fun k => ?_⟩
  · rw [h.keys]
    exact hsame fun m' p => m' = m ∧ getKey m' p = k
  · rw [h.found]
    exact hsame fun m' p => getKey m' p = k

theorem updateTableTrps_registered {tickets : List Ticket} {lb : LoadBalancer}
    {trps : List (Glet.ProxyInfo × List (Int × ℚ))}
    (hpairs : ∀ m k, (∃ e ∈ LoadBalancer.trpTickets trps, e.1 = m ∧ e.2.1 = k) ↔
      ∃ e ∈ tickets, e.1 = m ∧ e.2.1 = k)
    (h : (lb.updateTableTrps trps).type = .wrr) :
    LoadBalancer.Registered tickets (lb.updateTableTrps trps) := by
  unfold LoadBalancer.updateTableTrps at h ⊢
  split at h
  case h_1 hno => rw [hno] at h; cases h
  case h_2 hwrr => exact registered_of_pairs (LoadBalancer.registered_update hwrr _) hpairs

/-- The pairs in the load balancer's table are those of the decision. -/
theorem tickets_pairs (h : Laid s sim) (m : Int) (k : Glet.ProxyInfo) :
    (∃ e ∈ sim.tickets, e.1 = m ∧ e.2.1 = k) ↔
      ∃ n ∈ sim.nodes, ∃ t ∈ n.vTaskList, t.id = m ∧ ⟨n.id, n.resourcePntg, n.dedupNum⟩ = k := by
  simp only [SimState.tickets, SimState.nodes, List.mem_flatMap, List.mem_map]
  constructor
  · rintro ⟨e, ⟨g, hg, n, hn, t, ht, rfl⟩, rfl, rfl⟩
    obtain ⟨i, hi⟩ := List.mem_iff_getElem?.mp hg
    have hshaped := (h.gpus i g hi).shaped
    exact ⟨n, ⟨g, hg, hn⟩, t, ht, rfl, by rw [hshaped.id_eq n hn, hshaped.GPUID_eq]⟩
  · rintro ⟨n, ⟨g, hg, hn⟩, t, ht, rfl, rfl⟩
    obtain ⟨i, hi⟩ := List.mem_iff_getElem?.mp hg
    have hshaped := (h.gpus i g hi).shaped
    exact ⟨_, ⟨g, hg, n, hn, t, ht, rfl⟩, rfl, by rw [hshaped.id_eq n hn, hshaped.GPUID_eq]⟩

theorem flush_initial (type : LoadBalancerType) (ps : List ProxyInfo) :
    ps.foldl flush (Routes.initial type) = Routes.initial type := by
  induction ps with
  | nil => rfl
  | cons p ps ih =>
      have hone : flush (Routes.initial type) p = Routes.initial type := by
        have hnets := Function.update_eq_self p (Routes.initial type).perProxyNetList
        have hsched := Function.update_eq_self p (Routes.initial type).isSchedulable
        exact congrArg₂ (fun nets sched => { Routes.initial type with
          perProxyNetList := nets, isSchedulable := sched }) hnets hsched
      rw [List.foldl_cons, hone, ih]

/-! ## From a decision to the tables -/

/-- **A static schedule routes as the decision it was written from.** Whatever
decision is laid out on the GPUs, its file can be written, read and set up; the
tables are those of the decision with six decimals, as routing it would leave
them, and exactly the partitions without tasks are reserved. -/
theorem static_schedule_routed {nodes : List BackendNode} {byAddress : MappingTrps → MappingTrps}
    (hlaid : Laid s sim) (hserves : Serves nodes s) (hsize : (configureProxys nodes).nGPUs < 2 ^ 31)
    (hsome : sim.vGPUList ≠ []) (husable : Usable s (configureProxys nodes) typeOf sim)
    (hperm : ∀ trps, (byAddress trps).Perm trps) (type : LoadBalancerType) :
    ∃ nGPU configs text st r, schedulingResults s sim = .ok (nGPU, configs) ∧
      writeFile nGPU configs = .ok text ∧
      setupProxyTaskList s (configureProxys nodes) typeOf byAddress text (.initial type) = .ok st ∧
      applyRouting_sync s (configureProxys nodes) (sixDecimalState s sim) (.initial type) = .ok r ∧
      st.routes = { r with loadBalancer := st.routes.loadBalancer } ∧
      Routed (configureProxys nodes) (sixDecimalState s sim) st.routes ∧
      ∀ n ∈ sim.nodes, ∀ p, Has (configureProxys nodes) p n = true →
        (st.isReserved p = true ↔ n.vTaskList = []) := by
  have hread := fun n hn => husable.readable hlaid hserves hsize (n := n) hn
  have hgpus := hserves.gpus
  have hle := hlaid.length_le
  have hlen : 0 < sim.vGPUList.length := List.length_pos_of_ne_nil hsome
  have hwrite : schedulingResults s sim = .ok (Int32.ofNat sim.vGPUList.length,
      (sim.nodes.map (linesOf s)).flatten) := by
    rw [schedulingResults, mapM_eq_map fun n hn => nodeConfigs_known (hlaid.known hn)]
    rfl
  have hlines : ∀ c ∈ (sim.nodes.map (linesOf s)).flatten,
      accepts (Int32.ofNat sim.vGPUList.length) c = true ∧ Plain c.name := by
    intro c hc
    obtain ⟨l, hl, hc⟩ := List.mem_flatten.mp hc
    obtain ⟨n, hn, rfl⟩ := List.mem_map.mp hl
    obtain ⟨p, hp, hnread⟩ := hread n hn
    obtain ⟨i, g, hi, -, hid, -⟩ := hlaid.gpu_of_mem hn
    have hlt := (List.getElem?_eq_some_iff.mp hi).1
    exact hnread.accepted (by omega) (by omega) hc
  have hne : (sim.nodes.map (linesOf s)).flatten ≠ [] := by
    obtain ⟨g, gs, hg⟩ := List.exists_cons_of_ne_nil hsome
    have hsplit := (hlaid.gpus 0 g (by rw [hg]; rfl)).shaped.split
    have hnodes : g.vNodeList ≠ [] := by
      intro hnil
      rw [hnil] at hsplit
      cases hsplit
    obtain ⟨n, hn⟩ := List.exists_mem_of_ne_nil _ hnodes
    have hmem : n ∈ sim.nodes := List.mem_flatMap.mpr ⟨g, by rw [hg]; exact List.mem_cons_self .., hn⟩
    obtain ⟨c, hc⟩ := List.exists_mem_of_ne_nil _ (linesOf_ne_nil s n)
    exact List.ne_nil_of_mem (List.mem_flatten.mpr ⟨_, List.mem_map_of_mem hmem, hc⟩)
  have hpos : 0 < Int32.ofInt (configureProxys nodes).nGPUs := by
    rw [Int32.lt_iff_toInt_lt, toInt_ofInt_small (by omega) (by omega)]
    show (0 : Int) < _
    omega
  obtain ⟨text, htext, hback⟩ := read_written hpos hne hlines
  obtain ⟨st, hset, hroutes, hreserved, hpushed⟩ := setup_nodes hread
    (StaticSetup.initial type)
  obtain ⟨r, hr, hrouted, -⟩ := (laid_sixDecimalState hlaid).routed hserves (.initial type)
  rw [applyRouting_sync, flush_initial, nodes_sixDecimalState] at hr
  rw [show (StaticSetup.initial type).routes = Routes.initial type from rfl] at hroutes
  rw [hroutes] at hr
  obtain rfl := Except.ok.inj hr
  refine ⟨_, _, text, { st with routes := { st.routes with
    loadBalancer := st.routes.loadBalancer.updateTableTrps
      (balancerTrps (byAddress st.mappingTrps)) } }, { st.routes with
    loadBalancer := st.routes.loadBalancer.updateTable (sixDecimalState s sim) },
    hwrite, htext, ?_, ?_, rfl, ?_, ?_⟩
  · rw [setupProxyTaskList, hback]
    simp only [hset, Query.ok_bind, pure, Except.pure]
  · rw [applyRouting_sync, flush_initial, nodes_sixDecimalState, hroutes]
    rfl
  · refine ⟨hrouted.found, hrouted.nets, hrouted.others, ?_⟩
    refine updateTableTrps_registered fun m k => ?_
    rw [tickets_sixDecimalState, tickets_pairs hlaid]
    simp only [mem_balancerTrps, pushed_perm (hperm _), hpushed, StaticSetup.initial,
      not_pushed_nil, false_or]
    constructor
    · rintro ⟨e, ⟨p, item, ⟨n, hn, hp, t, ht, rfl⟩, rfl⟩, rfl, rfl⟩
      obtain ⟨hdev, hkey⟩ := Has.found hserves.homed hp
      obtain ⟨hcap, hdedup⟩ := Prod.mk.inj hkey
      exact ⟨n, hn, t, ht, rfl, by rw [hdev, hcap, hdedup]⟩
    · rintro ⟨n, hn, t, ht, rfl, rfl⟩
      obtain ⟨p, hp, -⟩ := hread n hn
      obtain ⟨hdev, hkey⟩ := Has.found hserves.homed hp
      obtain ⟨hcap, hdedup⟩ := Prod.mk.inj hkey
      exact ⟨_, ⟨p, _, ⟨n, hn, hp, t, ht, rfl⟩, rfl⟩, rfl, by rw [hdev, hcap, hdedup]⟩
  · intro n hn p hp
    have hbool : st.isReserved p = n.vTaskList.isEmpty := by
      rw [hreserved, StaticSetup.initial, Bool.false_or, ← List.any_filter,
        hlaid.filter_has hserves.homed hn hp]
      simp
    show st.isReserved p = true ↔ _
    rw [hbool, List.isEmpty_iff]

/-- Batches of 6 on the only GPU, a third of a millisecond too long for six
decimals. -/
def lenetNode : Node where
  vTaskList := [{
    id := 0, requestRate := 100, additionalRate := 0, SLO := 30, batchSize := 6, throughput := 100 }]
  dutyCycle := some (60 + 1 / 3)
  occupancy := 0
  resourcePntg := 100
  id := 0
  reserved := false
  dedupNum := 0
  type := ""

def lenetSchedule : SimState :=
  ⟨[⟨0, 0, 0, "", [], [lenetNode]⟩], []⟩

theorem lenetSchedule_laid : Laid oneGPU lenetSchedule := by
  have hmem : ∀ n ∈ [lenetNode], n = lenetNode := fun n hn => List.mem_singleton.mp hn
  refine ⟨fun i g hg => ?_, by decide⟩
  obtain ⟨rfl, rfl⟩ : i = 0 ∧ g = ⟨0, 0, 0, "", [], [lenetNode]⟩ := by
    have hlt := (List.getElem?_eq_some_iff.mp hg).1
    obtain rfl : i = 0 := Nat.lt_one_iff.mp hlt
    exact ⟨rfl, (Option.some.inj hg).symm⟩
  refine ⟨⟨rfl, ?_, .whole, ?_⟩, ?_, ?_⟩
  all_goals
    intro n hn
    obtain rfl := hmem n hn
  · rfl
  · decide
  · decide
  · intro t ht
    obtain rfl := List.mem_singleton.mp ht
    exact ⟨.lenet1, rfl⟩

theorem static_schedule_routed_whole :
    ∃ nGPU configs text st, schedulingResults oneGPU lenetSchedule = .ok (nGPU, configs) ∧
      writeFile nGPU configs = .ok text ∧
      setupProxyTaskList oneGPU (configureProxys oneNode) (fun _ => "gpu") id text
        (.initial .wrr) = .ok st ∧
      Routed (configureProxys oneNode) (sixDecimalState oneGPU lenetSchedule) st.routes := by
  have husable : Usable oneGPU (configureProxys oneNode) (fun _ => "gpu") lenetSchedule := by
    constructor
    · intro n hn _
      obtain rfl := List.mem_singleton.mp hn
      decide +kernel
    · intro n hn t ht p _
      obtain rfl := List.mem_singleton.mp hn
      obtain rfl := List.mem_singleton.mp ht
      exact ⟨_, rfl⟩
  have hperm : ∀ trps : MappingTrps, (id trps).Perm trps := fun _ => .refl _
  obtain ⟨nGPU, configs, text, st, r, hresults, hwrite, hset, -, -, hrouted, -⟩ :=
    static_schedule_routed lenetSchedule_laid oneGPU_serves (by decide +kernel) (by decide) husable
      hperm .wrr
  exact ⟨nGPU, configs, text, st, hresults, hwrite, hset, hrouted⟩

end Glet.Devices.StaticSchedule
