import Glet.Devices
import Mathlib.Data.List.Induction

/-!
# Which proxy a command reaches

The nodes get their devices in the order of their ids, so those of a node start
where the GPUs of the nodes before end (`devsBefore`), which is what
`lookupFrontDevIDtoBackDevID` takes off. What is left is a device of the
backend, and its list there is the list of the device here (`proxiesOf_onDev`).
-/

namespace Glet.Devices

/-! ## The devices of a node -/

/-- The GPUs of the nodes whose ids satisfy a test. -/
def devsOf (test : Nat → Bool) (nodes : List BackendNode) : Int :=
  ((nodes.filter fun n => test n.nodeID).map fun n => n.sys.nGPUs).sum

/-- The GPUs of the nodes with smaller ids. -/
def devsBefore (nodes : List BackendNode) (nodeID : Nat) : Int := devsOf (· < nodeID) nodes

section Numbering

variable {nodes : List BackendNode} {d : Int}

theorem devsOf_append_single (test : Nat → Bool) (nodes : List BackendNode) (n : BackendNode) :
    devsOf test (nodes ++ [n]) = devsOf test nodes + if test n.nodeID then n.sys.nGPUs else 0 := by
  cases htest : test n.nodeID <;> simp [devsOf, htest]

theorem devsBefore_succ (nodes : List BackendNode) (i : Nat) :
    devsBefore nodes (i + 1) = devsBefore nodes i + devsOf (· = i) nodes := by
  induction nodes using List.reverseRecOn with
  | nil => rfl
  | append_singleton nodes n ih =>
      simp only [devsBefore, devsOf_append_single] at ih ⊢
      rw [ih]
      by_cases hlt : n.nodeID < i
      · simp [hlt, Nat.lt_succ_of_lt hlt, Nat.ne_of_lt hlt]
        ring
      · by_cases heq : n.nodeID = i
        · simp [heq]
          ring
        · have hgt : ¬n.nodeID < i + 1 := by omega
          simp [hlt, heq, hgt]

theorem BackendNode.nGPUs_nonneg (n : BackendNode) : 0 ≤ n.sys.nGPUs := by
  obtain ⟨first, last, -, hup⟩ := startBackend_up n.started
  have hle := hup.le
  have hnGPUs := hup.nGPUs
  omega

/-- With distinct ids every delegate is added. -/
theorem setupBackendProxyCtrls_spec (hnodup : (nodes.map BackendNode.nodeID).Nodup) :
    (∀ i, ((setupBackendProxyCtrls nodes).mMapBackendDelegate i).isSome →
        i ∈ nodes.map BackendNode.nodeID) ∧
      ∀ i, (setupBackendProxyCtrls nodes).mPerBackendNodeDevNum i = devsOf (· = i) nodes := by
  induction nodes using List.reverseRecOn with
  | nil => exact ⟨fun i h => absurd h (by simp [setupBackendProxyCtrls, BackendProxyCtrl.empty]),
      fun i => rfl⟩
  | append_singleton nodes n ih =>
      rw [List.map_append, List.map_singleton] at hnodup ⊢
      obtain ⟨hnodes, -, hdisj⟩ := List.nodup_append.mp hnodup
      have hnew : n.nodeID ∉ nodes.map BackendNode.nodeID := fun hmem =>
        hdisj n.nodeID hmem n.nodeID (List.mem_singleton_self _) rfl
      obtain ⟨hmap, hdev⟩ := ih hnodes
      have hsetup : setupBackendProxyCtrls (nodes ++ [n]) =
          (setupBackendProxyCtrls nodes).addBackendDelegate n.delegate := by
        rw [setupBackendProxyCtrls, List.foldl_append]
        rfl
      have hfree : ¬((setupBackendProxyCtrls nodes).mMapBackendDelegate n.delegate.nodeID).isSome :=
        fun h => hnew (hmap _ h)
      rw [hsetup, BackendProxyCtrl.addBackendDelegate, if_neg hfree]
      refine ⟨fun i h => ?_, fun i => ?_⟩
      · by_cases heq : i = n.nodeID
        · exact List.mem_append_right _ (List.mem_singleton.mpr heq)
        · have hold : ((setupBackendProxyCtrls nodes).mMapBackendDelegate i).isSome := by
            simpa only [Function.update_of_ne (show i ≠ n.delegate.nodeID from heq)] using h
          exact List.mem_append_left _ (hmap i hold)
      · rw [devsOf_append_single]
        by_cases heq : i = n.nodeID
        · have hnone : devsOf (· = i) nodes = 0 := by
            have hfilter : (nodes.filter fun m => m.nodeID = i) = [] := by
              refine List.filter_eq_nil_iff.mpr fun m hm => ?_
              have hne : m.nodeID ≠ i := fun h => hnew (List.mem_map.mpr ⟨m, hm, h.trans heq⟩)
              simpa using hne
            rw [devsOf, hfilter]
            rfl
          subst heq
          rw [hnone]
          simp [BackendNode.delegate]
        · have hdelegate : i ≠ n.delegate.nodeID := heq
          simp only [Function.update_of_ne hdelegate, hdev]
          simp [Ne.symm heq]

/-- Taking off the devices of the nodes before. -/
theorem lookupFrontDevIDtoBackDevID_eq (hnodup : (nodes.map BackendNode.nodeID).Nodup)
    (p : ProxyInfo) :
    (setupBackendProxyCtrls nodes).lookupFrontDevIDtoBackDevID p =
      p.devID - devsBefore nodes p.nodeID := by
  have hsum : ∀ k, (List.range k).foldl
      (fun sum i => sum + (setupBackendProxyCtrls nodes).mPerBackendNodeDevNum i) 0 =
        devsBefore nodes k := by
    intro k
    induction k with
    | zero => simp [devsBefore, devsOf]
    | succ k ih =>
        rw [List.range_succ, List.foldl_append, ih, devsBefore_succ,
          ← (setupBackendProxyCtrls_spec hnodup).2 k]
        rfl
  rw [BackendProxyCtrl.lookupFrontDevIDtoBackDevID, hsum]

/-- What the frontend has created: every device belongs to a node, from
`devsBefore` on, or to none. -/
structure Numbered (nodes : List BackendNode) (sys : SysMonitor) : Prop where
  nGPUs : sys.nGPUs = (nodes.map fun n => n.sys.nGPUs).sum
  fresh : ∀ d, sys.nGPUs ≤ d → sys.perDevMPSInfo d = []
  proxies : ∀ d, sys.perDevMPSInfo d = [] ∨ ∃ n ∈ nodes, devsBefore nodes n.nodeID ≤ d ∧
    d < devsBefore nodes n.nodeID + n.sys.nGPUs ∧
      sys.perDevMPSInfo d = proxiesOf n.nodeID d n.sizes 0

theorem configureProxys_numbered (hsorted : nodes.Pairwise (fun m n => m.nodeID < n.nodeID)) :
    Numbered nodes (configureProxys nodes) := by
  induction nodes using List.reverseRecOn with
  | nil => exact ⟨rfl, fun _ _ => rfl, fun _ => Or.inl rfl⟩
  | append_singleton nodes n ih =>
      obtain ⟨hnodes, -, hlast⟩ := List.pairwise_append.mp hsorted
      obtain ⟨hnGPUs, hfresh, hproxies⟩ := ih hnodes
      have hconf : configureProxys (nodes ++ [n]) =
          createProxyInfos (configureProxys nodes) n.sizes n.nodeID n.sys.nGPUs := by
        rw [configureProxys, List.foldl_append]
        rfl
      have hbefore : ∀ m ∈ nodes, devsBefore (nodes ++ [n]) m.nodeID = devsBefore nodes m.nodeID := by
        intro m hm
        have hlt := hlast m hm n (List.mem_singleton_self n)
        have hnot : ¬n.nodeID < m.nodeID := Nat.not_lt_of_gt hlt
        simp [devsBefore, devsOf_append_single, hnot]
      have hown : devsBefore (nodes ++ [n]) n.nodeID = (configureProxys nodes).nGPUs := by
        have hall : (nodes.filter fun m => m.nodeID < n.nodeID) = nodes :=
          List.filter_eq_self.mpr fun m hm => by
            simpa using hlast m hm n (List.mem_singleton_self n)
        rw [devsBefore, devsOf_append_single, devsOf, hall, hnGPUs]
        simp
      have hnonneg := n.nGPUs_nonneg
      rw [hconf]
      refine ⟨?_, fun d hd => ?_, fun d => ?_⟩
      · simp [createProxyInfos, hnGPUs]
      · have htotal : (configureProxys nodes).nGPUs + n.sys.nGPUs ≤ d := hd
        have hnot : d ∉ devsFrom (configureProxys nodes).nGPUs n.sys.nGPUs := by
          rw [mem_devsFrom]
          omega
        exact (perDevMPSInfo_of_notMem hnot).trans (hfresh d (by omega))
      · by_cases hd : d ∈ devsFrom (configureProxys nodes).nGPUs n.sys.nGPUs
        · obtain ⟨hle, hlt⟩ := mem_devsFrom.mp hd
          refine Or.inr ⟨n, List.mem_append_right _ (List.mem_singleton_self n), ?_, ?_, ?_⟩
          · rw [hown]
            exact hle
          · rw [hown]
            exact hlt
          · have hnew : (createProxyInfos (configureProxys nodes) n.sizes n.nodeID
                n.sys.nGPUs).perDevMPSInfo d =
                (configureProxys nodes).perDevMPSInfo d ++ proxiesOf n.nodeID d n.sizes 0 :=
              perDevMPSInfo_of_mem (nodup_devsFrom _ _) hd
            rw [hfresh d hle, List.nil_append] at hnew
            exact hnew
        · have hkeep : (createProxyInfos (configureProxys nodes) n.sizes n.nodeID
              n.sys.nGPUs).perDevMPSInfo d = (configureProxys nodes).perDevMPSInfo d :=
            perDevMPSInfo_of_notMem hd
          rw [hkeep]
          rcases hproxies d with hnil | ⟨m, hm, hle, hlt, heq⟩
          · exact Or.inl hnil
          · rw [← hbefore m hm] at hle hlt
            exact Or.inr ⟨m, List.mem_append_left _ hm, hle, hlt, heq⟩

end Numbering

/-! ## The proxy of a command -/

/-- What becomes of a command for `p` on the backend of `n`. -/
def BackendNode.addressed (n : BackendNode) (ctrl : BackendProxyCtrl) (p : ProxyInfo) :
    Option ProxyInfo :=
  n.sys.addressed (ctrl.lookupFrontDevIDtoBackDevID p) p.partitionNum

/-- `q` is on the host GPU that corresponds to the one of `p`, and has the same
partition of it. -/
structure Counterpart (n : BackendNode) (ctrl : BackendProxyCtrl) (p q : ProxyInfo) : Prop where
  node : n.nodeID = p.nodeID
  local_nonneg : 0 ≤ ctrl.lookupFrontDevIDtoBackDevID p
  local_lt : ctrl.lookupFrontDevIDtoBackDevID p < n.sys.nGPUs
  host : ∃ first last, readIdxs n.gpuIdxs = some [first, last] ∧
    n.sys.nGPUs = last - first + 1 ∧ q.devID = first + ctrl.lookupFrontDevIDtoBackDevID p
  cap : q.cap = p.cap
  dedupNum : q.dedupNum = p.dedupNum
  partitionNum : q.partitionNum = p.partitionNum

section Agreement

variable {nodes : List BackendNode} {n : BackendNode} {d : Int} {p p' q : ProxyInfo}

/-- Nodes get their ids in order. -/
theorem sorted_connectBackendList (backends : List (Option Backend)) :
    (connectBackendList backends).Pairwise (fun m n => m.nodeID < n.nodeID) := by
  have hids : (backends.zipIdx.map Prod.snd).Pairwise (· < ·) := by
    rw [List.zipIdx_map_snd]
    exact List.pairwise_lt_range'
  refine List.Pairwise.filterMap _ ?_ (List.pairwise_map.mp hids)
  rintro e e' hlt m hm n hn
  obtain ⟨b, -, rfl⟩ := Option.map_eq_some_iff.mp hm
  obtain ⟨b', -, rfl⟩ := Option.map_eq_some_iff.mp hn
  exact hlt

theorem nodup_of_sorted (hsorted : nodes.Pairwise (fun m n => m.nodeID < n.nodeID)) :
    (nodes.map BackendNode.nodeID).Nodup := by
  rw [List.Nodup, List.pairwise_map]
  exact hsorted.imp fun h => Nat.ne_of_lt h

/-- The node of a proxy, and its partition on the host GPU that corresponds. -/
structure Placed (nodes : List BackendNode) (n : BackendNode) (first last : Int) (p : ProxyInfo) :
    Prop where
  node : p.nodeID = n.nodeID
  idxs : readIdxs n.gpuIdxs = some [first, last]
  up : Up n.sys n.sizes first last
  local_nonneg : 0 ≤ (setupBackendProxyCtrls nodes).lookupFrontDevIDtoBackDevID p
  local_lt : (setupBackendProxyCtrls nodes).lookupFrontDevIDtoBackDevID p < n.sys.nGPUs
  mem : p.onDev 0 (first + (setupBackendProxyCtrls nodes).lookupFrontDevIDtoBackDevID p) ∈
    proxiesOf 0 (first + (setupBackendProxyCtrls nodes).lookupFrontDevIDtoBackDevID p) n.sizes 0

theorem placed_of_mem (hsorted : nodes.Pairwise (fun m n => m.nodeID < n.nodeID))
    (hp : p ∈ (configureProxys nodes).perDevMPSInfo d) :
    ∃ n ∈ nodes, ∃ first last, Placed nodes n first last p := by
  rcases (configureProxys_numbered hsorted).proxies d with hnil | ⟨n, hn, hle, hlt, heq⟩
  · rw [hnil] at hp
    cases hp
  · rw [heq] at hp
    obtain ⟨hnode, hdev, -⟩ := of_mem_proxiesOf hp
    obtain ⟨first, last, hidxs, hup⟩ := startBackend_up n.started
    have hlocal : (setupBackendProxyCtrls nodes).lookupFrontDevIDtoBackDevID p =
        d - devsBefore nodes n.nodeID := by
      rw [lookupFrontDevIDtoBackDevID_eq (nodup_of_sorted hsorted), hdev, hnode]
    refine ⟨n, hn, first, last, hnode, hidxs, hup, by omega, by omega, ?_⟩
    rw [hlocal]
    exact proxiesOf_onDev 0 (first + (d - devsBefore nodes n.nodeID)) ▸ List.mem_map_of_mem hp

theorem Placed.counterpart {first last : Int} (h : Placed nodes n first last p) :
    Counterpart n (setupBackendProxyCtrls nodes) p
      (p.onDev 0 (first + (setupBackendProxyCtrls nodes).lookupFrontDevIDtoBackDevID p)) :=
  ⟨h.node.symm, h.local_nonneg, h.local_lt, ⟨first, last, h.idxs, h.up.nGPUs, rfl⟩, rfl, rfl, rfl⟩

theorem addressed_of_mem (hsorted : nodes.Pairwise (fun m n => m.nodeID < n.nodeID))
    (hp : p ∈ (configureProxys nodes).perDevMPSInfo d) :
    ∃ n ∈ nodes, ∃ q, Counterpart n (setupBackendProxyCtrls nodes) p q ∧
      n.addressed (setupBackendProxyCtrls nodes) p = some q := by
  obtain ⟨n, hn, first, last, hplaced⟩ := placed_of_mem hsorted hp
  exact ⟨n, hn, _, hplaced.counterpart,
    hplaced.up.addressed hplaced.local_nonneg hplaced.local_lt hplaced.mem⟩

theorem devID_of_mem (hsorted : nodes.Pairwise (fun m n => m.nodeID < n.nodeID))
    (hp : p ∈ (configureProxys nodes).perDevMPSInfo d) : p.devID = d := by
  rcases (configureProxys_numbered hsorted).proxies d with hnil | ⟨n, -, -, -, heq⟩
  · rw [hnil] at hp
    cases hp
  · rw [heq] at hp
    exact (of_mem_proxiesOf hp).2.1

theorem nodup_perDevMPSInfo (hsorted : nodes.Pairwise (fun m n => m.nodeID < n.nodeID)) (d : Int) :
    ((configureProxys nodes).perDevMPSInfo d).Nodup := by
  rcases (configureProxys_numbered hsorted).proxies d with hnil | ⟨n, -, -, -, heq⟩
  · rw [hnil]
    exact List.nodup_nil
  · rw [heq]
    exact nodup_proxiesOf

/-- A node is known by its id. -/
theorem eq_of_nodeID (hsorted : nodes.Pairwise (fun m n => m.nodeID < n.nodeID)) {m : BackendNode}
    (hm : m ∈ nodes) (hn : n ∈ nodes) (h : m.nodeID = n.nodeID) : m = n :=
  List.inj_on_of_nodup_map (nodup_of_sorted hsorted) hm hn h

/-- A proxy of a backend stands for one proxy of the frontend. -/
theorem Counterpart.inj (hnodup : (nodes.map BackendNode.nodeID).Nodup)
    (h : Counterpart n (setupBackendProxyCtrls nodes) p q)
    (h' : Counterpart n (setupBackendProxyCtrls nodes) p' q) : p = p' := by
  obtain ⟨first, last, hidxs, -, hdev⟩ := h.host
  obtain ⟨first', last', hidxs', -, hdev'⟩ := h'.host
  have hnode : p.nodeID = p'.nodeID := h.node.symm.trans h'.node
  have hfirst : first = first' := by
    have hboth := hidxs.symm.trans hidxs'
    simp only [Option.some.injEq, List.cons.injEq] at hboth
    exact hboth.1
  have hcap := h.cap.symm.trans h'.cap
  have hdedup := h.dedupNum.symm.trans h'.dedupNum
  have hpart := h.partitionNum.symm.trans h'.partitionNum
  rw [lookupFrontDevIDtoBackDevID_eq hnodup] at hdev hdev'
  have hdevID : p.devID = p'.devID := by
    rw [hnode] at hdev
    omega
  cases p
  cases p'
  simp_all

/-- Every proxy of the frontend has its counterpart on its node, a command for
it reaches that one, and no other proxy has the same. The proxies of the
frontend differ in what they say, so they can be told apart. -/
theorem proxies_agree (hsorted : nodes.Pairwise (fun m n => m.nodeID < n.nodeID)) :
    (∀ d, ((configureProxys nodes).perDevMPSInfo d).Nodup ∧
      ∀ p ∈ (configureProxys nodes).perDevMPSInfo d, p.devID = d) ∧
    (∀ d, ∀ p ∈ (configureProxys nodes).perDevMPSInfo d, ∃ n ∈ nodes, ∃ q,
      Counterpart n (setupBackendProxyCtrls nodes) p q ∧
        n.addressed (setupBackendProxyCtrls nodes) p = some q) ∧
    (∀ d, ∀ p ∈ (configureProxys nodes).perDevMPSInfo d,
      ∀ d', ∀ p' ∈ (configureProxys nodes).perDevMPSInfo d', ∀ n ∈ nodes,
        n.nodeID = p.nodeID → n.nodeID = p'.nodeID → p ≠ p' →
          n.addressed (setupBackendProxyCtrls nodes) p ≠
            n.addressed (setupBackendProxyCtrls nodes) p') := by
  refine ⟨fun d => ⟨nodup_perDevMPSInfo hsorted d, fun p hp => devID_of_mem hsorted hp⟩,
    fun d p hp => addressed_of_mem hsorted hp, ?_⟩
  intro d p hp d' p' hp' n hn hnode hnode' hne heq
  obtain ⟨m, hm, q, hq, haddr⟩ := addressed_of_mem hsorted hp
  obtain ⟨m', hm', q', hq', haddr'⟩ := addressed_of_mem hsorted hp'
  obtain rfl := eq_of_nodeID hsorted hm hn (hq.node.trans hnode.symm)
  obtain rfl := eq_of_nodeID hsorted hm' hm (hq'.node.trans hnode'.symm)
  rw [haddr, haddr'] at heq
  obtain rfl := Option.some.inj heq
  exact hne (hq.inj (nodup_of_sorted hsorted) hq')

/-- Two nodes, one id skipped. -/
theorem proxies_agree_two :
    ∃ nodes : List BackendNode, nodes.map BackendNode.nodeID = [0, 2] ∧
      nodes.map (fun n => n.gpuIdxs) = ["1-2", "0-3"] ∧
      nodes.map (fun n => n.sizes) = [[20, 50, 80], [50, 100]] ∧
      ∀ d, ∀ p ∈ (configureProxys nodes).perDevMPSInfo d, ∃ n ∈ nodes, ∃ q,
        Counterpart n (setupBackendProxyCtrls nodes) p q ∧
          n.addressed (setupBackendProxyCtrls nodes) p = some q := by
  obtain ⟨sys, hsys⟩ := startBackend_range (show 1 ≤ 2 by decide) (by decide) [20, 50, 80]
  obtain ⟨sys', hsys'⟩ := startBackend_range (show 0 ≤ 3 by decide) (by decide) [50, 100]
  exact ⟨[⟨⟨"1-2", [20, 50, 80], sys, hsys⟩, 0⟩, ⟨⟨"0-3", [50, 100], sys', hsys'⟩, 2⟩],
    rfl, rfl, rfl, (proxies_agree (by simp)).2.1⟩

end Agreement

end Glet.Devices
