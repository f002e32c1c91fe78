import Glet.Epoch
import Glet.LoadBalancer
import Glet.SaturationTable
import Glet.UnloadModels

/-!
# Routing a decision

`applyRouting_sync` makes a decision effective: it clears the net lists of all
proxies, looks up the proxy of each node, and gives it the node's tasks and duty
cycle. The load balancer gets the decision as a whole.

The lookup asserts that there is a proxy. There is one for each node of a
decision that is `Laid` out on the GPUs of the system, and no other node has the
same: the lists afterwards are those of the decision (`Routed`).
-/

namespace Glet.Devices.Routing

open Unload

/-! ## The tables -/

/-- Where requests go: the net lists of `SysMonitor`, what routing sets in a
`proxy_info`, and the load balancer. -/
structure Routes where
  perProxyNetList : ProxyInfo → List (String × Int)
  isSchedulable : ProxyInfo → Bool
  dutyCycle : ProxyInfo → ℚ
  loadBalancer : LoadBalancer

/-- Before anything is routed. -/
def Routes.initial (type : LoadBalancerType) : Routes where
  perProxyNetList := fun _ => []
  isSchedulable := fun _ => false
  dutyCycle := fun _ => 0
  loadBalancer := { LoadBalancer.start with type := type }

def Routes.insertNetToProxyNetList (r : Routes) (p : ProxyInfo) (net : String × Int) : Routes :=
  { r with perProxyNetList :=
      Function.update r.perProxyNetList p (r.perProxyNetList p ++ [net]) }

/-- The proxies of all GPUs, in the order of the two loops. -/
def allProxys (sys : SysMonitor) : List ProxyInfo :=
  (List.range sys.nGPUs.toNat).flatMap fun i : Nat => sys.perDevMPSInfo i

/-- "first flush all routing info": one proxy. -/
def flush (r : Routes) (p : ProxyInfo) : Routes :=
  { r with
    perProxyNetList := Function.update r.perProxyNetList p []
    isSchedulable := Function.update r.isSchedulable p false }

/-- The proxy of a node; the assertions of `getProxyInfo` may fail. -/
def proxyOf (sys : SysMonitor) (n : Node) : Query ProxyInfo :=
  match getProxyInfo sys n.id n.resourcePntg n.dedupNum with
  | some p => .ok p
  | none => .error .assertion

def pushTask (p : ProxyInfo) (r : Routes) (t : Task) : Query Routes := do
  let name ← getModelName t.id
  return r.insertNetToProxyNetList p (name.name, t.batchSize)

/-- "found proxy_infos and update them": one node. -/
def routeNode (s : Scheduler) (sys : SysMonitor) (r : Routes) (n : Node) : Query Routes := do
  let p ← proxyOf sys n
  if n.vTaskList = [] then return r
  else do
    let r ← n.vTaskList.foldlM (pushTask p) r
    return { r with
      isSchedulable := Function.update r.isSchedulable p true
      dutyCycle := Function.update r.dutyCycle p (s.dutyOf n) }

/-- `applyRouting_sync`, once no proxy is loading. -/
def applyRouting_sync (s : Scheduler) (sys : SysMonitor) (output : SimState) (r : Routes) :
    Query Routes := do
  let r := (allProxys sys).foldl flush r
  let r ← output.nodes.foldlM (routeNode s sys) r
  return { r with loadBalancer := r.loadBalancer.updateTable output }

/-! ## One node -/

variable {s : Scheduler} {sys : SysMonitor} {r r' : Routes} {p q : ProxyInfo} {n : Node}
  {sim : SimState}

/-- A task with the id of a model. -/
def Known (t : Task) : Prop := ∃ m : Model, getModelName t.id = .ok m

/-- What a net list has for a task. -/
def netOf (t : Task) : String × Int :=
  (((getModelName t.id).toOption.map Model.name).getD "", t.batchSize)

theorem pushTask_known {t : Task} (h : Known t) :
    pushTask p r t = .ok (r.insertNetToProxyNetList p (netOf t)) := by
  obtain ⟨m, hm⟩ := h
  simp [pushTask, netOf, hm, bind, Except.bind, pure, Except.pure, Except.toOption]

/-- More nets at the end of a list. -/
def Routes.insertNets (r : Routes) (p : ProxyInfo) (nets : List (String × Int)) : Routes :=
  { r with perProxyNetList :=
      Function.update r.perProxyNetList p (r.perProxyNetList p ++ nets) }

theorem insertNets_cons (net : String × Int) (nets : List (String × Int)) :
    (r.insertNetToProxyNetList p net).insertNets p nets = r.insertNets p (net :: nets) := by
  simp [Routes.insertNetToProxyNetList, Routes.insertNets]

theorem pushTasks_known {ts : List Task} (h : ∀ t ∈ ts, Known t) :
    ts.foldlM (pushTask p) r = .ok (r.insertNets p (ts.map netOf)) := by
  induction ts generalizing r with
  | nil => simp [Routes.insertNets, pure, Except.pure]
  | cons t ts ih =>
      rw [List.foldlM_cons, pushTask_known (h t (List.mem_cons_self ..))]
      show List.foldlM (pushTask p) (r.insertNetToProxyNetList p (netOf t)) ts = _
      rw [ih fun t' ht' => h t' (List.mem_cons_of_mem t ht'), insertNets_cons, List.map_cons]

/-- The tables after a node that has the proxy. -/
def Routes.withNode (s : Scheduler) (r : Routes) (p : ProxyInfo) (n : Node) : Routes :=
  if n.vTaskList = [] then r
  else
    { r.insertNets p (n.vTaskList.map netOf) with
      isSchedulable := Function.update r.isSchedulable p true
      dutyCycle := Function.update r.dutyCycle p (s.dutyOf n) }

theorem routeNode_known (hp : proxyOf sys n = .ok p) (h : ∀ t ∈ n.vTaskList, Known t) :
    routeNode s sys r n = .ok (r.withNode s p n) := by
  rw [routeNode, hp]
  show (if n.vTaskList = [] then _ else _) = _
  rw [Routes.withNode]
  split
  · rfl
  · rw [pushTasks_known h]
    rfl

@[simp] theorem withNode_netList : (r.withNode s p n).perProxyNetList q =
    r.perProxyNetList q ++ if q = p then n.vTaskList.map netOf else [] := by
  unfold Routes.withNode
  split
  case isTrue h => simp [h]
  case isFalse =>
    by_cases hq : q = p
    · simp [hq, Routes.insertNets]
    · simp [hq, Routes.insertNets]

@[simp] theorem withNode_isSchedulable : (r.withNode s p n).isSchedulable q =
    (r.isSchedulable q || (decide (q = p) && !n.vTaskList.isEmpty)) := by
  unfold Routes.withNode
  split
  case isTrue h => simp [h]
  case isFalse h =>
    by_cases hq : q = p
    · simp [hq, h]
    · simp [hq, Function.update_of_ne]

theorem withNode_dutyCycle : (r.withNode s p n).dutyCycle q =
    if q = p ∧ n.vTaskList ≠ [] then s.dutyOf n else r.dutyCycle q := by
  unfold Routes.withNode
  split
  case isTrue h => simp [h]
  case isFalse h =>
    by_cases hq : q = p
    · simp [hq, h]
    · simp [hq, Function.update_of_ne]

@[simp] theorem withNode_loadBalancer : (r.withNode s p n).loadBalancer = r.loadBalancer := by
  unfold Routes.withNode
  split <;> rfl

/-! ## All nodes -/

/-- The node has this proxy. -/
def Has (sys : SysMonitor) (p : ProxyInfo) (n : Node) : Bool :=
  decide (getProxyInfo sys n.id n.resourcePntg n.dedupNum = some p)

theorem proxyOf_ok : proxyOf sys n = .ok p ↔ Has sys p n = true := by
  unfold proxyOf Has
  cases getProxyInfo sys n.id n.resourcePntg n.dedupNum with
  | none => simp
  | some q => simp

/-- Nodes that have a proxy each, with tasks that have models: what the loop
leaves in the tables of a proxy comes from the nodes that have it. -/
theorem routeNodes {ns : List Node} (hfound : ∀ n ∈ ns, ∃ p, Has sys p n = true)
    (hknown : ∀ n ∈ ns, ∀ t ∈ n.vTaskList, Known t) :
    ∃ r', ns.foldlM (routeNode s sys) r = .ok r' ∧ r'.loadBalancer = r.loadBalancer ∧
      ∀ p, r'.perProxyNetList p = r.perProxyNetList p ++
          (ns.filter (Has sys p)).flatMap (fun n => n.vTaskList.map netOf) ∧
        r'.isSchedulable p = (r.isSchedulable p ||
          (ns.filter (Has sys p)).any fun n => !n.vTaskList.isEmpty) ∧
        ((∀ n ∈ ns.filter (Has sys p), n.vTaskList = []) → r'.dutyCycle p = r.dutyCycle p) ∧
        ∀ d, (∃ n ∈ ns.filter (Has sys p), n.vTaskList ≠ []) →
          (∀ n ∈ ns.filter (Has sys p), n.vTaskList ≠ [] → s.dutyOf n = d) → r'.dutyCycle p = d := by
  induction ns generalizing r with
  | nil => exact ⟨r, rfl, rfl, fun p => ⟨by simp, by simp, fun _ => rfl, by simp⟩⟩
  | cons n ns ih =>
      obtain ⟨p0, hp0⟩ := hfound n (List.mem_cons_self ..)
      have hfirst := routeNode_known (s := s) (r := r) (proxyOf_ok.mpr hp0)
        (hknown n (List.mem_cons_self ..))
      obtain ⟨r', hrest, hlb, htables⟩ := ih (r := r.withNode s p0 n)
        (fun n' hn' => hfound n' (List.mem_cons_of_mem n hn'))
        (fun n' hn' => hknown n' (List.mem_cons_of_mem n hn'))
      refine ⟨r', ?_, by rw [hlb, withNode_loadBalancer], fun p => ?_⟩
      · rw [List.foldlM_cons, hfirst]
        exact hrest
      · obtain ⟨hnets, hsched, hkeep, hduty⟩ := htables p
        have hone : Has sys p n = decide (p = p0) := by
          rw [Has] at hp0 ⊢
          rw [of_decide_eq_true hp0]
          simp [eq_comm]
        rw [hnets, hsched, withNode_netList, withNode_isSchedulable]
        rw [withNode_dutyCycle] at hkeep
        by_cases hp : p = p0
        · have hcons : (n :: ns).filter (Has sys p) = n :: ns.filter (Has sys p) :=
            List.filter_cons_of_pos (by rw [hone, decide_eq_true hp])
          rw [hcons]
          refine ⟨by simp [hp], by simp [hp, Bool.or_assoc], fun hnil => ?_, fun d hsome hall => ?_⟩
          · rw [hkeep fun n' hn' => hnil n' (List.mem_cons_of_mem n hn'), if_neg]
            rintro ⟨-, hne⟩
            exact hne (hnil n (List.mem_cons_self ..))
          · by_cases hlater : ∃ n' ∈ ns.filter (Has sys p), n'.vTaskList ≠ []
            · exact hduty d hlater fun n' hn' => hall n' (List.mem_cons_of_mem n hn')
            · push Not at hlater
              obtain ⟨n', hn', hne⟩ := hsome
              rcases List.mem_cons.mp hn' with rfl | hn'
              · rw [hkeep hlater, if_pos ⟨hp, hne⟩]
                exact hall _ (List.mem_cons_self ..) hne
              · exact absurd (hlater n' hn') hne
        · have hcons : (n :: ns).filter (Has sys p) = ns.filter (Has sys p) :=
            List.filter_cons_of_neg (by simp [hone, hp])
          rw [hcons]
          rw [if_neg fun h => hp h.1] at hkeep
          exact ⟨by simp [hp], by simp [hp], hkeep, hduty⟩

/-! ## Flushing -/

theorem flush_all (r : Routes) (ps : List ProxyInfo) :
    (ps.foldl flush r).loadBalancer = r.loadBalancer ∧
    (∀ p, (ps.foldl flush r).dutyCycle p = r.dutyCycle p) ∧
    ∀ p ∈ ps, (ps.foldl flush r).perProxyNetList p = [] ∧
      (ps.foldl flush r).isSchedulable p = false := by
  induction ps using List.reverseRecOn with
  | nil => exact ⟨rfl, fun _ => rfl, by simp⟩
  | append_singleton ps q ih =>
      obtain ⟨hlb, hduty, hflushed⟩ := ih
      rw [List.foldl_append, List.foldl_cons, List.foldl_nil]
      refine ⟨hlb, hduty, fun p hp => ?_⟩
      by_cases hq : p = q
      · simp [flush, hq]
      · have hp' : p ∈ ps := by simpa [hq] using hp
        simp only [flush, Function.update_of_ne hq]
        exact hflushed p hp'

/-! ## Proxies for all nodes -/

section Sizes

variable {nodes : List BackendNode} {d : Int}

/-- A GPU of the system is a GPU of some node. -/
theorem exists_backendNode (hsorted : nodes.Pairwise fun m n => m.nodeID < n.nodeID) (hpos : 0 ≤ d)
    (hlt : d < (configureProxys nodes).nGPUs) :
    ∃ n ∈ nodes, (configureProxys nodes).perDevMPSInfo d = proxiesOf n.nodeID d n.sizes 0 := by
  induction nodes using List.reverseRecOn with
  | nil => exact absurd hlt (not_lt.mpr hpos)
  | append_singleton nodes n ih =>
      have hnodes := (List.pairwise_append.mp hsorted).1
      have hconf : configureProxys (nodes ++ [n]) =
          createProxyInfos (configureProxys nodes) n.sizes n.nodeID n.sys.nGPUs := by
        rw [configureProxys, List.foldl_append]
        rfl
      rw [hconf] at hlt ⊢
      by_cases hold : d < (configureProxys nodes).nGPUs
      · obtain ⟨m, hm, heq⟩ := ih hnodes hold
        refine ⟨m, List.mem_append_left _ hm, Eq.trans ?_ heq⟩
        refine perDevMPSInfo_of_notMem fun hd => ?_
        have hle := (mem_devsFrom.mp hd).1
        omega
      · refine ⟨n, List.mem_append_right _ (List.mem_singleton_self n), ?_⟩
        have hnew : (createProxyInfos (configureProxys nodes) n.sizes n.nodeID
            n.sys.nGPUs).perDevMPSInfo d =
            (configureProxys nodes).perDevMPSInfo d ++ proxiesOf n.nodeID d n.sizes 0 :=
          perDevMPSInfo_of_mem (nodup_devsFrom _ _) (mem_devsFrom.mpr ⟨not_lt.mp hold, hlt⟩)
        rw [hnew, (configureProxys_numbered hnodes).fresh d (not_lt.mp hold), List.nil_append]

/-- A size has a proxy with dedup number 0, and 50 has one with 1 too. -/
theorem exists_proxyOf {nodeID : Nat} {parts : List Int} {part dedupNum k : Int}
    (hpart : part ∈ parts) (hdedup : dedupNum = 0 ∨ (part = 50 ∧ dedupNum = 1)) :
    ∃ p ∈ proxiesOf nodeID d parts k, p.cap = part ∧ p.dedupNum = dedupNum := by
  induction parts generalizing k with
  | nil => cases hpart
  | cons q parts ih =>
      unfold proxiesOf
      rcases List.mem_cons.mp hpart with rfl | hpart
      · split
        case isTrue =>
          rcases hdedup with rfl | ⟨-, rfl⟩
          · exact ⟨_, List.mem_cons_self .., rfl, rfl⟩
          · exact ⟨_, List.mem_cons_of_mem _ (List.mem_cons_self ..), rfl, rfl⟩
        case isFalse hne =>
          obtain rfl := hdedup.resolve_right fun h => hne h.1
          exact ⟨_, List.mem_cons_self .., rfl, rfl⟩
      · split
        case isTrue =>
          obtain ⟨p, hp, hkey⟩ := ih (k := k + 2) hpart
          exact ⟨p, List.mem_cons_of_mem _ (List.mem_cons_of_mem _ hp), hkey⟩
        case isFalse =>
          obtain ⟨p, hp, hkey⟩ := ih (k := k + 1) hpart
          exact ⟨p, List.mem_cons_of_mem _ hp, hkey⟩

/-- Every backend offers these partition sizes. -/
def Offers (nodes : List BackendNode) (parts : List Int) : Prop :=
  ∀ n ∈ nodes, ∀ part ∈ parts, part ∈ n.sizes

theorem getProxyInfo_found {parts : List Int} {part dedupNum : Int}
    (hsorted : nodes.Pairwise fun m n => m.nodeID < n.nodeID) (hoffers : Offers nodes parts)
    (hpos : 0 ≤ d) (hlt : d < (configureProxys nodes).nGPUs) (hpart : part ∈ parts)
    (hdedup : dedupNum = 0 ∨ (part = 50 ∧ dedupNum = 1)) :
    ∃ p, getProxyInfo (configureProxys nodes) d part dedupNum = some p := by
  obtain ⟨n, hn, heq⟩ := exists_backendNode hsorted hpos hlt
  obtain ⟨p, hp, hcap, hdedupNum⟩ : ∃ p ∈ proxiesOf n.nodeID d n.sizes 0,
      p.cap = part ∧ p.dedupNum = dedupNum := exists_proxyOf (hoffers n hn part hpart) hdedup
  rw [getProxyInfo, if_pos hlt, heq, ← Option.isSome_iff_exists, List.find?_isSome]
  exact ⟨p, hp, by simp [hcap, hdedupNum]⟩

end Sizes

/-! ## Decisions that can be routed -/

/-- A GPU whose nodes have sizes that are offered, and tasks that have models. -/
structure LaidGPU (parts : List Int) (i : Nat) (g : GPU) : Prop where
  shaped : ShapedGPU i g
  offered : ∀ n ∈ g.vNodeList, n.resourcePntg ∈ parts
  known : ∀ n ∈ g.vNodeList, ∀ t ∈ n.vTaskList, Known t

/-- On the devices of the scheduler. -/
structure Laid (s : Scheduler) (sim : SimState) : Prop where
  gpus : AllGPUs (LaidGPU s.availParts) sim
  length_le : sim.vGPUList.length ≤ s.deviceTypes.length

theorem dedup_of_split {l : List (Int × Int)} (h : Split l) {k : Int × Int} (hk : k ∈ l) :
    k.2 = 0 ∨ (k.1 = 50 ∧ k.2 = 1) := by
  cases h with
  | whole =>
      rw [List.mem_singleton.mp hk]
      exact Or.inl rfl
  | @parts p h0 h1 =>
      rcases List.mem_pair.mp hk with rfl | rfl
      · exact Or.inl rfl
      · by_cases hp : p = 50
        · exact Or.inr ⟨by simp [hp], by simp [hp]⟩
        · exact Or.inl (by simp [hp])

theorem Laid.distinctNodes (h : Laid s sim) : AllGPUs DistinctNodes sim :=
  fun i g hg => distinctNodes_of_shaped (h.gpus i g hg).shaped

/-- A node and the GPU it is on. -/
theorem Laid.gpu_of_mem (h : Laid s sim) (hn : n ∈ sim.nodes) :
    ∃ i g, sim.vGPUList[i]? = some g ∧ n ∈ g.vNodeList ∧ n.id = i ∧ LaidGPU s.availParts i g := by
  obtain ⟨g, hg, hn⟩ := List.mem_flatMap.mp hn
  obtain ⟨i, hi⟩ := List.mem_iff_getElem?.mp hg
  have hlaid := h.gpus i g hi
  exact ⟨i, g, hi, hn, hlaid.shaped.id_eq n hn, hlaid⟩

theorem Laid.known (h : Laid s sim) (hn : n ∈ sim.nodes) : ∀ t ∈ n.vTaskList, Known t := by
  obtain ⟨i, g, -, hmem, -, hlaid⟩ := h.gpu_of_mem hn
  exact hlaid.known n hmem

/-- The key of a node among all nodes. -/
def nodeKey (n : Node) : Nat × Int × Int := (n.id, n.key)

theorem Laid.nodup_nodeKey (h : Laid s sim) : (sim.nodes.map nodeKey).Nodup := by
  have hkeys : sim.nodes.map nodeKey = (nodesOf sim).map keyOf := by
    simp only [SimState.nodes, nodesOf, List.map_flatMap, List.map_map]
    refine List.flatMap_congr fun g hg => List.map_congr_left fun n hn => ?_
    obtain ⟨i, hi⟩ := List.mem_iff_getElem?.mp hg
    have hshaped := (h.gpus i g hi).shaped
    show (n.id, n.key) = (g.GPUID, n.key)
    rw [hshaped.id_eq n hn, hshaped.GPUID_eq]
  rw [hkeys]
  exact nodup_keyOf h.distinctNodes

theorem Has.found (hsys : Unload.Homed sys) (h : Has sys p n = true) :
    p.devID = n.id ∧ n.key = (p.cap, p.dedupNum) :=
  Names.found (e := (n.id, n)) hsys (of_decide_eq_true h)

/-- No two nodes have the same proxy. -/
theorem Laid.filter_has (h : Laid s sim) (hsys : Unload.Homed sys) (hn : n ∈ sim.nodes)
    (hp : Has sys p n = true) : sim.nodes.filter (Has sys p) = [n] := by
  rw [← filter_key_of_nodup h.nodup_nodeKey hn]
  refine List.filter_congr fun n' _ => ?_
  by_cases hkey : nodeKey n = nodeKey n'
  · simp only [nodeKey, Node.key, Prod.mk.injEq] at hkey
    obtain ⟨hid, hpart, hdedup⟩ := hkey
    simpa [Has, nodeKey, Node.key, hid, hpart, hdedup] using hp
  · rw [decide_eq_false hkey, Bool.eq_false_iff]
    intro hp'
    have hfirst := Has.found hsys hp
    have hsecond := Has.found hsys hp'
    refine hkey (Prod.ext ?_ (hfirst.2.trans hsecond.2.symm))
    exact Int.ofNat_inj.mp (hfirst.1.symm.trans hsecond.1)

/-- The system has the GPUs and the partition sizes of the scheduler. -/
structure Serves (nodes : List BackendNode) (s : Scheduler) : Prop where
  sorted : nodes.Pairwise fun m n => m.nodeID < n.nodeID
  offers : Offers nodes s.availParts
  gpus : (s.deviceTypes.length : Int) ≤ (configureProxys nodes).nGPUs

theorem Serves.homed {nodes : List BackendNode} (h : Serves nodes s) :
    Unload.Homed (configureProxys nodes) :=
  ⟨devID_of_mem h.sorted⟩

theorem Laid.exists_proxy {nodes : List BackendNode} (h : Laid s sim) (hserves : Serves nodes s)
    (hn : n ∈ sim.nodes) : ∃ p, Has (configureProxys nodes) p n = true := by
  obtain ⟨i, g, hi, hmem, hid, hlaid⟩ := h.gpu_of_mem hn
  have hlt : i < s.deviceTypes.length :=
    lt_of_lt_of_le (List.getElem?_eq_some_iff.mp hi).1 h.length_le
  have hgpus := hserves.gpus
  have hdedup := dedup_of_split hlaid.shaped.split (List.mem_map_of_mem hmem)
  obtain ⟨p, hp⟩ := getProxyInfo_found hserves.sorted hserves.offers (d := n.id)
    (by omega) (by omega) (hlaid.offered n hmem) hdedup
  exact ⟨p, decide_eq_true hp⟩

/-! ## What routing leaves -/

/-- The tables are those of a decision. -/
structure Routed (sys : SysMonitor) (sim : SimState) (r : Routes) : Prop where
  found : ∀ n ∈ sim.nodes, ∃ p, Has sys p n = true
  nets : ∀ n ∈ sim.nodes, ∀ p, Has sys p n = true →
    r.perProxyNetList p = n.vTaskList.map netOf ∧ (r.isSchedulable p = true → n.vTaskList ≠ []) ∧
      (n.vTaskList ≠ [] → ∀ d, n.dutyCycle = some d → r.dutyCycle p = d)
  others : ∀ p ∈ allProxys sys, (∀ n ∈ sim.nodes, ¬ Has sys p n = true) →
    r.perProxyNetList p = [] ∧ r.isSchedulable p = false
  balanced : r.loadBalancer.type = .wrr → LoadBalancer.Registered sim.tickets r.loadBalancer

theorem mem_allProxys (hp : getProxyInfo sys n.id n.resourcePntg n.dedupNum = some p) :
    p ∈ allProxys sys := by
  rw [getProxyInfo] at hp
  split at hp
  case isTrue hlt =>
    refine List.mem_flatMap.mpr ⟨n.id, List.mem_range.mpr (by omega), ?_⟩
    exact List.mem_of_find?_eq_some hp
  case isFalse => cases hp

theorem updateTable_registered {lb : LoadBalancer} (sim : SimState)
    (h : (lb.updateTable sim).type = .wrr) :
    LoadBalancer.Registered sim.tickets (lb.updateTable sim) := by
  unfold LoadBalancer.updateTable at h ⊢
  split at h
  case h_1 hno => rw [hno] at h; cases h
  case h_2 hwrr =>
    exact LoadBalancer.registered_update hwrr sim.tickets

/-- **Every decision that is laid out can be routed**, whatever the tables were
before, and requests go to every node with tasks. -/
theorem Laid.routed {nodes : List BackendNode} (h : Laid s sim) (hserves : Serves nodes s)
    (r : Routes) :
    ∃ r', applyRouting_sync s (configureProxys nodes) sim r = .ok r' ∧
      Routed (configureProxys nodes) sim r' ∧
      ∀ n ∈ sim.nodes, ∀ p, Has (configureProxys nodes) p n = true → n.vTaskList ≠ [] →
        r'.isSchedulable p = true := by
  have hfound := fun n hn => h.exists_proxy hserves (n := n) hn
  obtain ⟨r', hrun, -, htables⟩ := routeNodes (s := s)
    (r := (allProxys (configureProxys nodes)).foldl flush r) hfound fun n hn => h.known hn
  obtain ⟨-, -, hflushed⟩ := flush_all r (allProxys (configureProxys nodes))
  have hnode : ∀ n ∈ sim.nodes, ∀ p, Has (configureProxys nodes) p n = true →
      r'.perProxyNetList p = n.vTaskList.map netOf ∧ r'.isSchedulable p = !n.vTaskList.isEmpty ∧
        (n.vTaskList ≠ [] → r'.dutyCycle p = s.dutyOf n) := by
    intro n hn p hp
    obtain ⟨hnets, hsched, -, hduty⟩ := htables p
    obtain ⟨hnil, hfalse⟩ := hflushed p (mem_allProxys (of_decide_eq_true hp))
    rw [h.filter_has hserves.homed hn hp] at hnets hsched hduty
    refine ⟨by simpa [hnil] using hnets, by simpa [hfalse] using hsched, fun hne => ?_⟩
    refine hduty _ ⟨n, List.mem_singleton_self n, hne⟩ fun n' hn' _ => ?_
    rw [List.mem_singleton.mp hn']
  refine ⟨{ r' with loadBalancer := r'.loadBalancer.updateTable sim }, ?_, ⟨hfound, ?_, ?_, ?_⟩, ?_⟩
  · rw [applyRouting_sync, hrun]
    rfl
  · intro n hn p hp
    obtain ⟨hnets, hsched, hduty⟩ := hnode n hn p hp
    refine ⟨hnets, fun hon hnil => ?_, fun hne d hd => ?_⟩
    · rw [show r'.isSchedulable p = _ from hsched, hnil] at hon
      cases hon
    · rw [show r'.dutyCycle p = _ from hduty hne, Scheduler.dutyOf, hd, Option.getD_some]
  · intro p hp hnone
    obtain ⟨hnets, hsched, -⟩ := htables p
    obtain ⟨hnil, hfalse⟩ := hflushed p hp
    have hempty : sim.nodes.filter (Has (configureProxys nodes) p) = [] :=
      List.filter_eq_nil_iff.mpr hnone
    rw [hempty] at hnets hsched
    exact ⟨by simpa [hnil] using hnets, by simpa [hfalse] using hsched⟩
  · exact updateTable_registered sim
  · intro n hn p hp hne
    rw [show r'.isSchedulable p = _ from (hnode n hn p hp).2.1]
    simpa using hne

/-- Two decisions with the same GPUs, nodes and entries have the same nodes, up to
the marks of their tasks. -/
theorem nodes_of_content {sim' : SimState} (hsame : sim'.content = sim.content) :
    sim'.nodes.map (SimState.copyNode 0) = sim.nodes.map (SimState.copyNode 0) := by
  have hflat : ∀ sim : SimState,
      sim.nodes.map (SimState.copyNode 0) = sim.content.flatMap fun e => e.2.2 := by
    intro sim
    simp only [SimState.nodes, SimState.content, List.map_flatMap, List.flatMap_map]
  rw [hflat, hflat, hsame]

theorem exists_node_of_content {sim' : SimState} {n' : Node} (hsame : sim'.content = sim.content)
    (hn' : n' ∈ sim'.nodes) : ∃ n ∈ sim.nodes, SimState.copyNode 0 n = SimState.copyNode 0 n' := by
  have hcopy : SimState.copyNode 0 n' ∈ sim.nodes.map (SimState.copyNode 0) :=
    nodes_of_content hsame ▸ List.mem_map_of_mem hn'
  exact List.mem_map.mp hcopy

theorem has_congr {n' : Node} (heq : SimState.copyNode 0 n = SimState.copyNode 0 n') :
    Has sys p n' = Has sys p n := by
  show Has sys p (SimState.copyNode 0 n') = Has sys p (SimState.copyNode 0 n)
  rw [heq]

theorem copyNode_tasks_eq_nil (n : Node) :
    n.vTaskList = [] ↔ (SimState.copyNode 0 n).vTaskList = [] := by
  rw [SimState.copyNode, List.map_eq_nil_iff]

/-- The tables of a decision are those of every decision with the same GPUs,
nodes and entries. -/
theorem Routed.of_content {sim' : SimState} (hsame : sim'.content = sim.content)
    (h : Routed sys sim r) : Routed sys sim' r := by
  have htickets : sim'.tickets = sim.tickets := by
    have hflat : ∀ sim : SimState, sim.tickets = sim.content.flatMap fun e =>
        e.2.2.flatMap fun n => n.vTaskList.map fun t =>
          (t.id, ⟨e.1, n.resourcePntg, n.dedupNum⟩, t.throughput) := by
      intro sim
      simp only [SimState.tickets, SimState.content, List.flatMap_map]
      refine List.flatMap_congr fun g _ => List.flatMap_congr fun n _ => ?_
      simp only [SimState.copyNode, List.map_map]
      rfl
    rw [hflat, hflat, hsame]
  have hnets : ∀ n : Node, n.vTaskList.map netOf = (SimState.copyNode 0 n).vTaskList.map netOf := by
    intro n
    rw [SimState.copyNode, List.map_map]
    rfl
  have hduty : ∀ n : Node, n.dutyCycle = (SimState.copyNode 0 n).dutyCycle := fun _ => rfl
  refine ⟨?_, ?_, ?_, ?_⟩
  · intro n' hn'
    obtain ⟨n, hn, heq⟩ := exists_node_of_content hsame hn'
    obtain ⟨p, hp⟩ := h.found n hn
    exact ⟨p, (has_congr heq).trans hp⟩
  · intro n' hn' p hp
    obtain ⟨n, hn, heq⟩ := exists_node_of_content hsame hn'
    have hold := h.nets n hn p ((has_congr heq).symm.trans hp)
    rw [hnets, Ne, copyNode_tasks_eq_nil, hduty, heq] at hold
    rw [hnets, Ne, copyNode_tasks_eq_nil, hduty]
    exact hold
  · intro p hp hnone
    refine h.others p hp fun n hn hhasn => ?_
    obtain ⟨n', hn', heq⟩ := exists_node_of_content hsame.symm hn
    exact hnone n' hn' ((has_congr heq.symm).trans hhasn)
  · rw [htickets]
    exact h.balanced

end Glet.Devices.Routing
