import Glet.GpuIdxs
import Mathlib.Algebra.BigOperators.Group.List.Basic
import Mathlib.Data.List.Nodup
import Mathlib.Tactic.Ring

/-!
# Devices and proxies on both sides

The frontend numbers the GPUs of all nodes in a row and makes a `proxy_info`
for every partition of each; every backend does the same with its own GPUs,
under the numbers that its host has for them. No names are exchanged: a command
carries a local device, which the frontend gets from the global one by taking
off the GPUs of the nodes before (`lookupFrontDevIDtoBackDevID`), and the
position of the partition on its device. A partition of 50% takes two
positions.

On both sides the list of a device is `proxiesOf` of the sizes
(`perDevMPSInfo_of_mem`), which is what makes the positions agree. `Up` says
what a backend is like when it is set up, and what it makes of a command.
-/

namespace Glet.Devices

/-! ## Proxies of a system -/

/-- What `createNewProxy` and its callers set and look at. -/
structure ProxyInfo where
  nodeID : Nat
  devID : Int
  cap : Int
  dedupNum : Int
  partitionNum : Int
  deriving DecidableEq

def createNewProxy (devID cap dedupNum partIndex : Int) : ProxyInfo :=
  ⟨0, devID, cap, dedupNum, partIndex⟩

/-- `FrontDevIDToHostDevID` is kept in the order of its keys. -/
structure SysMonitor where
  nGPUs : Int
  localIDToHostIDTable : List (Int × Int)
  perDevMPSInfo : Int → List ProxyInfo

def SysMonitor.empty : SysMonitor := ⟨0, [], fun _ => []⟩

namespace SysMonitor

def insertMPSInfoToDev (sys : SysMonitor) (devID : Int) (p : ProxyInfo) : SysMonitor :=
  { sys with
    perDevMPSInfo := Function.update sys.perDevMPSInfo devID (sys.perDevMPSInfo devID ++ [p]) }

/-- `operator[]` of the table. -/
def hostOf (sys : SysMonitor) (localID : Int) : Int :=
  (sys.localIDToHostIDTable.lookup localID).getD 0

/-- The overload with a partition number; `none` where an assertion fails. -/
def findProxy (sys : SysMonitor) (devID partitionNum : Int) : Option ProxyInfo :=
  if (if sys.localIDToHostIDTable.isEmpty then devID else devID - sys.hostOf 0) < sys.nGPUs then
    (sys.perDevMPSInfo devID).find? fun p => p.partitionNum = partitionNum
  else none

/-- The proxy of a command: `receiveControl` looks the device up, with `at`,
and `executeControl` the proxy. -/
def addressed (sys : SysMonitor) (localID partitionNum : Int) : Option ProxyInfo :=
  (sys.localIDToHostIDTable.lookup localID).bind fun devID => sys.findProxy devID partitionNum

end SysMonitor

/-! ## Creating them

The body of the loops is the same on both sides. `perdev_part_idx` of a device
starts at 0 and is used for no other device. -/

def createProxy (nodeID : Nat) (devID part dedupNum : Int) (s : SysMonitor × Int) : SysMonitor × Int :=
  (s.1.insertMPSInfoToDev devID { createNewProxy devID part dedupNum s.2 with nodeID := nodeID },
    s.2 + 1)

def createPart (nodeID : Nat) (devID : Int) (s : SysMonitor × Int) (part : Int) : SysMonitor × Int :=
  if part = 50 then createProxy nodeID devID part 1 (createProxy nodeID devID part 0 s)
  else createProxy nodeID devID part 0 s

def createDev (parts : List Int) (nodeID : Nat) (sys : SysMonitor) (devID : Int) : SysMonitor :=
  (parts.foldl (createPart nodeID devID) (sys, 0)).1

/-- `GlobalScheduler::createProxyInfos`. -/
def createProxyInfos (sys : SysMonitor) (parts : List Int) (nodeID : Nat) (ngpus : Int) : SysMonitor :=
  let devs := (List.range ngpus.toNat).map fun i : Nat => sys.nGPUs + i
  { devs.foldl (createDev parts nodeID) sys with nGPUs := sys.nGPUs + ngpus }

/-! ## A backend -/

/-- `none` where it throws or an assertion fails. -/
def parseGPUIdxs (sys : SysMonitor) (idxsString : String) : Option SysMonitor :=
  (readIdxs idxsString).bind fun idxs =>
    match idxs with
    | [first, last] =>
        if first ≤ last then
          let ngpus := last - first + 1
          some { sys with
            nGPUs := ngpus
            localIDToHostIDTable := (List.range ngpus.toNat).map fun i : Nat => ((i : Int), first + i) }
        else none
    | _ => none

/-- `createProxyInfos` of the backend. -/
def createBackendProxyInfos (sys : SysMonitor) (parts : List Int) (nodeID : Nat) : SysMonitor :=
  (List.range sys.nGPUs.toNat).foldl (fun s (i : Nat) => createDev parts nodeID s (s.hostOf i)) sys

/-- The setup in `main` of the backend, with a dummy node id. -/
def startBackend (idxsString : String) (parts : List Int) : Option SysMonitor :=
  (parseGPUIdxs .empty idxsString).map fun sys => createBackendProxyInfos sys parts 0

/-- A backend that is up. The frontend has the same sizes for it. -/
structure Backend where
  gpuIdxs : String
  sizes : List Int
  sys : SysMonitor
  started : startBackend gpuIdxs sizes = some sys

/-- With the id that the frontend has for it. -/
structure BackendNode extends Backend where
  nodeID : Nat

/-- The list of `backend_json`, where a backend that is not up is skipped. -/
def connectBackendList (backends : List (Option Backend)) : List BackendNode :=
  backends.zipIdx.filterMap fun e => e.1.map fun b => ⟨b, e.2⟩

/-! ## The frontend -/

/-- `_nGPUs` is what the backend has answered. -/
structure BackendDelegate where
  nodeID : Nat
  sizes : List Int
  nGPUs : Int

def BackendNode.delegate (n : BackendNode) : BackendDelegate := ⟨n.nodeID, n.sizes, n.sys.nGPUs⟩

/-- The loop of `main` over `NodeIDtoBackendDelegate`. -/
def configureProxys (nodes : List BackendNode) : SysMonitor :=
  nodes.foldl (fun sys n => createProxyInfos sys n.delegate.sizes n.delegate.nodeID n.delegate.nGPUs)
    .empty

structure BackendProxyCtrl where
  mMapBackendDelegate : Nat → Option BackendDelegate
  mPerBackendNodeDevNum : Nat → Int

def BackendProxyCtrl.empty : BackendProxyCtrl := ⟨fun _ => none, fun _ => 0⟩

/-- An id that is there already is an error, and nothing changes. -/
def BackendProxyCtrl.addBackendDelegate (ctrl : BackendProxyCtrl) (d : BackendDelegate) :
    BackendProxyCtrl :=
  if (ctrl.mMapBackendDelegate d.nodeID).isSome then ctrl
  else
    { mMapBackendDelegate := Function.update ctrl.mMapBackendDelegate d.nodeID (some d)
      mPerBackendNodeDevNum := Function.update ctrl.mPerBackendNodeDevNum d.nodeID d.nGPUs }

def setupBackendProxyCtrls (nodes : List BackendNode) : BackendProxyCtrl :=
  nodes.foldl (fun ctrl n => ctrl.addBackendDelegate n.delegate) .empty

def BackendProxyCtrl.lookupFrontDevIDtoBackDevID (ctrl : BackendProxyCtrl) (p : ProxyInfo) : Int :=
  p.devID - (List.range p.nodeID).foldl (fun sum i => sum + ctrl.mPerBackendNodeDevNum i) 0

/-! ## The proxies of a device -/

/-- What a device gets for the sizes, from the position `k` on. -/
def proxiesOf (nodeID : Nat) (devID : Int) : List Int → Int → List ProxyInfo
  | [], _ => []
  | part :: parts, k =>
      if part = 50 then
        ⟨nodeID, devID, part, 0, k⟩ :: ⟨nodeID, devID, part, 1, k + 1⟩ ::
          proxiesOf nodeID devID parts (k + 2)
      else ⟨nodeID, devID, part, 0, k⟩ :: proxiesOf nodeID devID parts (k + 1)

section ProxiesOf

variable {nodeID : Nat} {devID k : Int} {parts : List Int} {p : ProxyInfo}

/-- The same partition of another device. -/
def ProxyInfo.onDev (p : ProxyInfo) (nodeID : Nat) (devID : Int) : ProxyInfo :=
  { p with
    nodeID := nodeID
    devID := devID }

/-- The list of a device is the same for another device, or on the other side. -/
theorem proxiesOf_onDev (nodeID' : Nat) (devID' : Int) :
    (proxiesOf nodeID devID parts k).map (fun p => p.onDev nodeID' devID') =
      proxiesOf nodeID' devID' parts k := by
  induction parts generalizing k with
  | nil => rfl
  | cons part parts ih =>
      unfold proxiesOf
      split
      · rw [List.map_cons, List.map_cons, ih]
        rfl
      · rw [List.map_cons, ih]
        rfl

theorem of_mem_proxiesOf (h : p ∈ proxiesOf nodeID devID parts k) :
    p.nodeID = nodeID ∧ p.devID = devID ∧ k ≤ p.partitionNum := by
  induction parts generalizing k with
  | nil => cases h
  | cons part parts ih =>
      unfold proxiesOf at h
      split at h
      · rcases List.mem_cons.mp h with rfl | h
        · exact ⟨rfl, rfl, le_refl _⟩
        · rcases List.mem_cons.mp h with rfl | h
          · exact ⟨rfl, rfl, by simp⟩
          · obtain ⟨hnode, hdev, hk⟩ := ih h
            exact ⟨hnode, hdev, by omega⟩
      · rcases List.mem_cons.mp h with rfl | h
        · exact ⟨rfl, rfl, le_refl _⟩
        · obtain ⟨hnode, hdev, hk⟩ := ih h
          exact ⟨hnode, hdev, by omega⟩

/-- No two proxies of a device have the same position. -/
theorem pairwise_proxiesOf :
    (proxiesOf nodeID devID parts k).Pairwise fun p q => p.partitionNum < q.partitionNum := by
  induction parts generalizing k with
  | nil => exact List.Pairwise.nil
  | cons part parts ih =>
      have hlater : ∀ {m : Int}, k < m → ∀ q ∈ proxiesOf nodeID devID parts m, k < q.partitionNum :=
        fun hm q hq => lt_of_lt_of_le hm (of_mem_proxiesOf hq).2.2
      unfold proxiesOf
      split
      · refine List.pairwise_cons.mpr ⟨?_, List.pairwise_cons.mpr ⟨?_, ih⟩⟩
        · intro q hq
          rcases List.mem_cons.mp hq with rfl | hq
          · exact Int.lt_succ k
          · exact hlater (by omega) q hq
        · intro q hq
          have hle := (of_mem_proxiesOf hq).2.2
          show k + 1 < q.partitionNum
          omega
      · exact List.pairwise_cons.mpr ⟨hlater (Int.lt_succ k), ih⟩

theorem nodup_proxiesOf : (proxiesOf nodeID devID parts k).Nodup :=
  pairwise_proxiesOf.imp fun h heq => (Int.ne_of_lt h) (congrArg ProxyInfo.partitionNum heq)

/-- A position finds its proxy. -/
theorem find?_proxiesOf (h : p ∈ proxiesOf nodeID devID parts k) :
    (proxiesOf nodeID devID parts k).find? (fun q => q.partitionNum = p.partitionNum) = some p := by
  have hpair : (proxiesOf nodeID devID parts k).Pairwise _ := pairwise_proxiesOf
  generalize proxiesOf nodeID devID parts k = ps at h hpair
  induction ps with
  | nil => cases h
  | cons q ps ih =>
      obtain ⟨hq, hps⟩ := List.pairwise_cons.mp hpair
      rcases List.mem_cons.mp h with rfl | h
      · rw [List.find?_cons_of_pos (by simp)]
      · have hlt := hq p h
        rw [List.find?_cons_of_neg (by simpa using Int.ne_of_lt hlt)]
        exact ih h hps

/-- A device with a proxy has one at the first position. -/
theorem exists_first (h : p ∈ proxiesOf nodeID devID parts k) :
    ∃ q ∈ proxiesOf nodeID devID parts k, q.partitionNum = k := by
  cases parts with
  | nil => cases h
  | cons part parts =>
      refine ⟨⟨nodeID, devID, part, 0, k⟩, ?_, rfl⟩
      unfold proxiesOf
      split
      · exact List.mem_cons_self
      · exact List.mem_cons_self

end ProxiesOf

/-! ## What the loops create -/

section Create

variable {sys : SysMonitor} {parts devs : List Int} {nodeID : Nat} {d : Int}

/-- Proxies at the end of the list of a device. -/
def SysMonitor.insertAll (sys : SysMonitor) (devID : Int) (ps : List ProxyInfo) : SysMonitor :=
  { sys with
    perDevMPSInfo := Function.update sys.perDevMPSInfo devID (sys.perDevMPSInfo devID ++ ps) }

theorem insertAll_insertMPSInfoToDev (devID : Int) (p : ProxyInfo) (ps : List ProxyInfo) :
    (sys.insertMPSInfoToDev devID p).insertAll devID ps = sys.insertAll devID (p :: ps) := by
  simp [SysMonitor.insertMPSInfoToDev, SysMonitor.insertAll]

theorem foldl_createPart (sys : SysMonitor) (parts : List Int) (nodeID : Nat) (devID k : Int) :
    (parts.foldl (createPart nodeID devID) (sys, k)).1 =
      sys.insertAll devID (proxiesOf nodeID devID parts k) := by
  induction parts generalizing sys k with
  | nil => simp [proxiesOf, SysMonitor.insertAll]
  | cons part parts ih =>
      rw [List.foldl_cons]
      by_cases hpart : part = 50
      · have hstep : createPart nodeID devID (sys, k) part =
            ((sys.insertMPSInfoToDev devID ⟨nodeID, devID, part, 0, k⟩).insertMPSInfoToDev devID
              ⟨nodeID, devID, part, 1, k + 1⟩, k + 2) := by
          rw [createPart, if_pos hpart]
          simp [createProxy, createNewProxy, add_assoc]
        rw [hstep, ih, insertAll_insertMPSInfoToDev, insertAll_insertMPSInfoToDev, proxiesOf,
          if_pos hpart]
      · have hstep : createPart nodeID devID (sys, k) part =
            (sys.insertMPSInfoToDev devID ⟨nodeID, devID, part, 0, k⟩, k + 1) := by
          rw [createPart, if_neg hpart]
          rfl
        rw [hstep, ih, insertAll_insertMPSInfoToDev, proxiesOf, if_neg hpart]

theorem createDev_eq (sys : SysMonitor) (parts : List Int) (nodeID : Nat) (devID : Int) :
    createDev parts nodeID sys devID = sys.insertAll devID (proxiesOf nodeID devID parts 0) :=
  foldl_createPart sys parts nodeID devID 0

/-- The table and the number of GPUs stay. -/
theorem foldl_createDev (sys : SysMonitor) (parts : List Int) (nodeID : Nat) (devs : List Int) :
    devs.foldl (createDev parts nodeID) sys =
      { sys with perDevMPSInfo := (devs.foldl (createDev parts nodeID) sys).perDevMPSInfo } := by
  induction devs generalizing sys with
  | nil => rfl
  | cons e devs ih =>
      rw [List.foldl_cons, ih, createDev_eq]
      rfl

theorem perDevMPSInfo_of_notMem (h : d ∉ devs) :
    (devs.foldl (createDev parts nodeID) sys).perDevMPSInfo d = sys.perDevMPSInfo d := by
  induction devs generalizing sys with
  | nil => rfl
  | cons e devs ih =>
      obtain ⟨hne, hnot⟩ := not_or.mp (mt List.mem_cons.mpr h)
      rw [List.foldl_cons, ih hnot, createDev_eq]
      exact Function.update_of_ne hne _ _

/-- Each device gets its proxies once. -/
theorem perDevMPSInfo_of_mem (hnodup : devs.Nodup) (h : d ∈ devs) :
    (devs.foldl (createDev parts nodeID) sys).perDevMPSInfo d =
      sys.perDevMPSInfo d ++ proxiesOf nodeID d parts 0 := by
  induction devs generalizing sys with
  | nil => cases h
  | cons e devs ih =>
      obtain ⟨hnot, hnodup⟩ := List.nodup_cons.mp hnodup
      rw [List.foldl_cons]
      rcases List.mem_cons.mp h with rfl | h
      · rw [perDevMPSInfo_of_notMem hnot, createDev_eq]
        exact Function.update_self _ _ _
      · have hne : d ≠ e := fun heq => hnot (heq ▸ h)
        rw [ih hnodup h, createDev_eq]
        congr 1
        exact Function.update_of_ne hne _ _

/-- `n` devices from `first` on. -/
def devsFrom (first n : Int) : List Int := (List.range n.toNat).map fun i : Nat => first + i

theorem mem_devsFrom {first n : Int} : d ∈ devsFrom first n ↔ first ≤ d ∧ d < first + n := by
  simp only [devsFrom, List.mem_map, List.mem_range]
  constructor
  · rintro ⟨i, hi, rfl⟩
    omega
  · rintro ⟨hle, hlt⟩
    exact ⟨(d - first).toNat, by omega, by omega⟩

theorem nodup_devsFrom (first n : Int) : (devsFrom first n).Nodup := by
  refine List.Nodup.map ?_ List.nodup_range
  intro i j h
  simpa using h

end Create

/-! ## A backend that is up -/

section Backend

variable {sys : SysMonitor} {idxsString : String} {parts : List Int} {first last localID d : Int}

/-- What the setup of a backend leaves, for the range it was started with. -/
structure Up (sys : SysMonitor) (parts : List Int) (first last : Int) : Prop where
  le : first ≤ last
  nGPUs : sys.nGPUs = last - first + 1
  table : sys.localIDToHostIDTable =
    (List.range sys.nGPUs.toNat).map fun i : Nat => ((i : Int), first + i)
  proxies : ∀ d, first ≤ d → d ≤ last → sys.perDevMPSInfo d = proxiesOf 0 d parts 0

theorem lookup_map {l : List Nat} {i : Nat} (f : Nat → Int) (h : i ∈ l) :
    (l.map fun j : Nat => ((j : Int), f j)).lookup (i : Int) = some (f i) := by
  induction l with
  | nil => cases h
  | cons j l ih =>
      rw [List.map_cons]
      by_cases heq : i = j
      · rw [heq, List.lookup_cons_self]
      · have hl : i ∈ l := (List.mem_cons.mp h).resolve_left heq
        have hne : ((i : Int) == (j : Int)) = false := by simpa using heq
        rw [List.lookup_cons, hne]
        exact ih hl

theorem parseGPUIdxs_up (h : parseGPUIdxs .empty idxsString = some sys) :
    ∃ first last, readIdxs idxsString = some [first, last] ∧ first ≤ last ∧
      sys = ⟨last - first + 1, (List.range (last - first + 1).toNat).map fun i : Nat =>
        ((i : Int), first + i), fun _ => []⟩ := by
  obtain ⟨idxs, hidxs, h⟩ := Option.bind_eq_some_iff.mp h
  split at h
  case h_1 first last =>
    split at h
    case isTrue hle => exact ⟨first, last, hidxs, hle, (Option.some.inj h).symm⟩
    case isFalse => cases h
  case h_2 => cases h

theorem createBackendProxyInfos_eq (sys : SysMonitor) (parts : List Int) (nodeID : Nat) :
    createBackendProxyInfos sys parts nodeID =
      ((List.range sys.nGPUs.toNat).map fun i : Nat => sys.hostOf i).foldl (createDev parts nodeID)
        sys := by
  have hfold : ∀ (l : List Nat) (s : SysMonitor), (∀ i, s.hostOf i = sys.hostOf i) →
      l.foldl (fun s (i : Nat) => createDev parts nodeID s (s.hostOf i)) s =
        (l.map fun i : Nat => sys.hostOf i).foldl (createDev parts nodeID) s := by
    intro l
    induction l with
    | nil => exact fun _ _ => rfl
    | cons i l ih =>
        intro s hs
        rw [List.foldl_cons, List.map_cons, List.foldl_cons, hs]
        refine ih _ fun j => ?_
        rw [createDev_eq]
        exact hs j
  exact hfold _ _ fun _ => rfl

theorem startBackend_up (h : startBackend idxsString parts = some sys) :
    ∃ first last, readIdxs idxsString = some [first, last] ∧ Up sys parts first last := by
  obtain ⟨sys', hparse, rfl⟩ := Option.map_eq_some_iff.mp h
  obtain ⟨first, last, hidxs, hle, rfl⟩ := parseGPUIdxs_up hparse
  refine ⟨first, last, hidxs, ?_⟩
  rw [createBackendProxyInfos_eq, foldl_createDev]
  refine ⟨hle, rfl, rfl, fun d hfirst hlast => ?_⟩
  have hdevs : ((List.range (last - first + 1).toNat).map fun i : Nat =>
      SysMonitor.hostOf ⟨last - first + 1, (List.range (last - first + 1).toNat).map fun i : Nat =>
        ((i : Int), first + i), fun _ => []⟩ i) = devsFrom first (last - first + 1) := by
    refine List.map_congr_left fun i hi => ?_
    rw [SysMonitor.hostOf, lookup_map (fun i => first + i) hi, Option.getD_some]
  show SysMonitor.perDevMPSInfo (List.foldl _ _ (List.map _ _)) d = _
  rw [hdevs, perDevMPSInfo_of_mem (nodup_devsFrom _ _) (mem_devsFrom.mpr (by omega))]
  rfl

/-- Every range starts a backend. -/
theorem startBackend_range {a b : Nat} (hle : a ≤ b) (hb : b ≤ 2147483647) (parts : List Int) :
    ∃ sys, startBackend (toString a ++ "-" ++ toString b) parts = some sys := by
  have hle' : (a : Int) ≤ b := Int.ofNat_le.mpr hle
  rw [startBackend, parseGPUIdxs, readIdxs_range (hle.trans hb) hb, Option.bind_some]
  simp [hle']

/-- Local devices are translated by adding the first one of the host. -/
theorem Up.lookup_table (h : Up sys parts first last) (hpos : 0 ≤ localID)
    (hlt : localID < sys.nGPUs) :
    sys.localIDToHostIDTable.lookup localID = some (first + localID) := by
  obtain ⟨i, rfl⟩ := Int.eq_ofNat_of_zero_le hpos
  rw [h.table, lookup_map (fun i => first + i) (List.mem_range.mpr (by omega))]

theorem Up.findProxy {p : ProxyInfo} (h : Up sys parts first last) (hpos : 0 ≤ localID)
    (hlt : localID < sys.nGPUs) (hp : p ∈ proxiesOf 0 (first + localID) parts 0) :
    sys.findProxy (first + localID) p.partitionNum = some p := by
  have hnGPUs := h.nGPUs
  have hzero := h.lookup_table (le_refl 0) (by omega)
  have hfirst : sys.hostOf 0 = first := by
    rw [SysMonitor.hostOf, hzero, Option.getD_some, add_zero]
  have htable : sys.localIDToHostIDTable.isEmpty = false := by
    cases htab : sys.localIDToHostIDTable with
    | nil => rw [htab] at hzero; cases hzero
    | cons e es => rfl
  have hguard : (if sys.localIDToHostIDTable.isEmpty then first + localID
      else first + localID - sys.hostOf 0) < sys.nGPUs := by
    rw [htable, hfirst, if_neg (by simp)]
    omega
  rw [SysMonitor.findProxy, if_pos hguard, h.proxies _ (by omega) (by omega)]
  exact find?_proxiesOf hp

/-- A command for a proxy that the backend has under the same position reaches
it on the GPU that the table says. -/
theorem Up.addressed {p : ProxyInfo} (h : Up sys parts first last) (hpos : 0 ≤ localID)
    (hlt : localID < sys.nGPUs) (hp : p ∈ proxiesOf 0 (first + localID) parts 0) :
    sys.addressed localID p.partitionNum = some p := by
  rw [SysMonitor.addressed, h.lookup_table hpos hlt, Option.bind_some]
  exact h.findProxy hpos hlt hp

end Backend

end Glet.Devices
