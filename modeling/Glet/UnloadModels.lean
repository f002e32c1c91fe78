import Glet.Addressing
import Glet.Machine
import Glet.OneShot
import Glet.Partition
import Glet.Pool
import Glet.Sweep

/-!
# Unloading after a new schedule

`unloadModels` walks over the nodes of the state before. It looks up the proxy
of each and, where the proxy has models, the node of the state after with the
same GPU, partition and dedup number: with it a thread is started if the proxy
has a model that the node has no task for, without it in any case. The thread,
`unloadModel_async`, gets the ids of the node's tasks and erases from
`LoadedModels` the models of all others, while it iterates over the list.

The scheduler thread and the threads it starts take their steps in any order. A
wait (for the tasks of a model to clear, for a proxy to be RUNNING, FLUSHED or
COLD) is a step that comes late.
-/

namespace Glet.Devices.Unload

/-! ## State -/

/-- The arguments of a thread. -/
structure LoadArgs where
  pPInfo : ProxyInfo
  modelIdsBatches : List (Int × Int)

def LoadArgs.exemptingIds (arg : LoadArgs) : List Int := arg.modelIdsBatches.map (·.1)

/-- Where a thread of `unloadModel_async` is. -/
inductive UnloadPc where
  /-- In the loop over `LoadedModels`, with the iterator at this position. -/
  | iterating (it2 : Nat)
  /-- Waits for the proxy to be RUNNING. -/
  | waiting
  /-- In `shutdownProxy_sync`. -/
  | shuttingDown
  /-- About to clear `isUnloading`. -/
  | ending
  | done
  deriving DecidableEq

structure Thread where
  arg : LoadArgs
  pc : UnloadPc

/-- The flags of a proxy that the threads write or look at. -/
structure Flags where
  isUnloading : Bool
  isSchedulable : Bool
  isReserved : Bool
  isBooted : Bool
  isConnected : Bool

/-- Where the scheduler thread is in `unloadModels`. -/
inductive Caller where
  /-- Between two nodes, with those of the state before that it has not visited,
  each with its GPU. -/
  | visiting (todo : List (Nat × Node))
  /-- Looks for a node among the nodes of the state after. -/
  | comparing (pPInfo : ProxyInfo) (node : Node) (others : List Node) (found : Bool)
      (todo : List (Nat × Node))
  deriving DecidableEq

structure State where
  caller : Caller
  loadedModels : ProxyInfo → List String
  flags : ProxyInfo → Flags
  threads : List Thread

/-- The nodes of a state in the order of the two loops. -/
def nodesOf (sim : SimState) : List (Nat × Node) :=
  sim.vGPUList.flatMap fun g => g.vNodeList.map fun n => (g.GPUID, n)

/-- The nodes of the GPU at an index, if there is one. -/
def nodesAt (sim : SimState) (devID : Nat) : List Node :=
  match sim.vGPUList[devID]? with
  | some g => g.vNodeList
  | none => []

def start (prev : SimState) (loadedModels : ProxyInfo → List String) (flags : ProxyInfo → Flags) :
    State :=
  ⟨.visiting (nodesOf prev), loadedModels, flags, []⟩

/-! ## Steps -/

/-- `none` where an assertion fails. -/
def getProxyInfo (sys : SysMonitor) (devID cap dedupNum : Int) : Option ProxyInfo :=
  if devID < sys.nGPUs then
    (sys.perDevMPSInfo devID).find? fun p => p.cap = cap ∧ p.dedupNum = dedupNum
  else none

/-- Has the proxy a model that the node has no task for? `none` where the
assertion fails. -/
def needToUnload (node : Node) (pPInfo : ProxyInfo) (loadedModels : List String) : Option Bool :=
  if node.id = pPInfo.devID ∧ node.resourcePntg = pPInfo.cap ∧ node.dedupNum = pPInfo.dedupNum then
    if loadedModels.isEmpty then some false
    else some (loadedModels.any fun name => !node.vTaskList.any fun t => t.id == getModelID name)
  else none

/-- Set `isUnloading` and start a thread. -/
def State.startUnload (s : State) (arg : LoadArgs) : State :=
  { s with
    flags := Function.update s.flags arg.pPInfo { s.flags arg.pPInfo with isUnloading := true }
    threads := s.threads ++ [⟨arg, .iterating 0⟩] }

/-- A step of `unloadModels`. -/
def callerStep (sys : SysMonitor) (curr : SimState) (s : State) : Option State :=
  match s.caller with
  | .visiting [] => none
  | .visiting ((devID, node) :: todo) =>
      (getProxyInfo sys devID node.resourcePntg node.dedupNum).map fun p =>
        if (s.loadedModels p).isEmpty then { s with caller := .visiting todo }
        else { s with caller := .comparing p node (nodesAt curr devID) false todo }
  | .comparing p node (node2 :: others) found todo =>
      if node2.resourcePntg = node.resourcePntg ∧ node2.dedupNum = node.dedupNum then
        (needToUnload node2 p (s.loadedModels p)).map fun need =>
          if need then
            { s.startUnload ⟨p, node2.vTaskList.map fun t => (t.id, 0)⟩ with
              caller := .comparing p node others true todo }
          else { s with caller := .comparing p node others true todo }
      else some { s with caller := .comparing p node others found todo }
  | .comparing _ _ [] true todo => some { s with caller := .visiting todo }
  -- "if not found then just unload"
  | .comparing p _ [] false todo => some { s.startUnload ⟨p, []⟩ with caller := .visiting todo }

/-- A step of `unloadModel_async` on the loaded models and the flags of its
proxy; `none` where an assertion of `shutdownProxy_sync` fails. -/
def Thread.step (allowRepart : Bool) (t : Thread) (loadedModels : List String) (flags : Flags) :
    Option (UnloadPc × List String × Flags) :=
  match t.pc with
  | .iterating it2 =>
      match Sweep.turn (fun name => decide (getModelID name ∈ t.arg.exemptingIds)) loadedModels it2 with
      | some (loadedModels, it2) => some (.iterating it2, loadedModels, flags)
      | none => some (.waiting, loadedModels, flags)
  | .waiting =>
      if loadedModels.isEmpty ∧ allowRepart then
        if flags.isConnected ∧ flags.isBooted then
          some (.shuttingDown, loadedModels, { flags with isSchedulable := false })
        else none
      else some (.ending, loadedModels, flags)
  | .shuttingDown =>
      some (.ending, loadedModels, { flags with
        isBooted := false, isConnected := false, isReserved := false, isSchedulable := false })
  | .ending => some (.done, loadedModels, { flags with isUnloading := false })
  | .done => none

/-- Whose turn it is. -/
inductive Act where
  | caller
  | thread (i : Nat)

def step (sys : SysMonitor) (curr : SimState) (allowRepart : Bool) : Act → State → Option State
  | .caller, s => callerStep sys curr s
  | .thread i, s =>
      match s.threads[i]? with
      | none => none
      | some t =>
          match t.step allowRepart (s.loadedModels t.arg.pPInfo) (s.flags t.arg.pPInfo) with
          | none => none
          | some (pc, loadedModels, flags) =>
              some { s with
                loadedModels := Function.update s.loadedModels t.arg.pPInfo loadedModels
                flags := Function.update s.flags t.arg.pPInfo flags
                threads := s.threads.set i { t with pc } }

/-- `unloadModels` has returned and all threads it started have completed. -/
structure State.Completed (s : State) : Prop where
  returned : s.caller = .visiting []
  done : ∀ t ∈ s.threads, t.pc = .done

instance (s : State) : Decidable s.Completed :=
  decidable_of_iff (s.caller = .visiting [] ∧ ∀ t ∈ s.threads, t.pc = .done)
    ⟨fun h => ⟨h.1, h.2⟩, fun h => ⟨h.returned, h.done⟩⟩

/-! ## What stays -/

/-- The model is scheduled on the node of a state that has the proxy. -/
def keeps (curr : SimState) (p : ProxyInfo) (name : String) : Bool :=
  (nodesAt curr p.devID.toNat).any fun n =>
    decide (n.key = (p.cap, p.dedupNum)) && n.vTaskList.any fun t => t.id == getModelID name

/-- The proxy of a node. -/
abbrev Names (sys : SysMonitor) (e : Nat × Node) (p : ProxyInfo) : Prop :=
  getProxyInfo sys e.1 e.2.resourcePntg e.2.dedupNum = some p

/-- What tells the nodes of a state apart. -/
def keyOf (e : Nat × Node) : Nat × Int × Int := (e.1, e.2.key)

/-- The proxies that a thread was started for. -/
def started (threads : List Thread) : List ProxyInfo := threads.map (·.arg.pPInfo)

variable {sys : SysMonitor} {prev curr : SimState} {allowRepart : Bool}
  {l0 models : ProxyInfo → List String} {s s' : State} {p q : ProxyInfo} {e : Nat × Node}
  {t : Thread} {threads : List Thread} {ps ps' : List ProxyInfo} {loaded loaded' : List String}
  {flags flags' : Flags} {pc : UnloadPc}

theorem keeps_iff {name : String} : keeps curr p name = true ↔
    ∃ n ∈ nodesAt curr p.devID.toNat, n.key = (p.cap, p.dedupNum) ∧
      ∃ t ∈ n.vTaskList, t.id = getModelID name := by
  simp [keeps]

/-- What unloading needs of the partition invariant. -/
structure DistinctNodes (i : Nat) (g : GPU) : Prop where
  GPUID_eq : g.GPUID = i
  id_eq : ∀ n ∈ g.vNodeList, n.id = i
  nodup : (g.vNodeList.map Node.key).Nodup

theorem distinctNodes_of_shaped {i : Nat} {g : GPU} (h : ShapedGPU i g) : DistinctNodes i g :=
  ⟨h.GPUID_eq, h.id_eq, h.split.nodup⟩

/-- The decisions that it is called with. -/
theorem distinctNodes_of_reachable {sched : Scheduler} {sim : SimState}
    (havail : AvailParts sched.availParts) (hprofile : ProfileRange sched)
    (h : Reachable sched (Initiated sched) sim) : AllGPUs DistinctNodes sim :=
  fun i g hg => distinctNodes_of_shaped (h.shaped havail hprofile i g hg)

/-- The proxies of a device say so. -/
structure Homed (sys : SysMonitor) : Prop where
  devID_eq : ∀ {d p}, p ∈ sys.perDevMPSInfo d → p.devID = d

theorem Names.found (hsys : Homed sys) (h : Names sys e p) :
    p.devID = e.1 ∧ e.2.key = (p.cap, p.dedupNum) := by
  rw [Names, getProxyInfo] at h
  split at h
  case isTrue =>
    have hkey := List.find?_some h
    simp only [decide_eq_true_eq] at hkey
    exact ⟨hsys.devID_eq (List.mem_of_find?_eq_some h),
      Prod.ext hkey.1.symm hkey.2.symm⟩
  case isFalse => cases h

/-- A proxy belongs to one node. -/
theorem Names.key_eq {e' : Nat × Node} (hsys : Homed sys) (h : Names sys e p)
    (h' : Names sys e' p) : keyOf e = keyOf e' := by
  obtain ⟨hdev, hkey⟩ := h.found hsys
  obtain ⟨hdev', hkey'⟩ := h'.found hsys
  refine Prod.ext ?_ (hkey.trans hkey'.symm)
  exact Int.ofNat_inj.mp (hdev.symm.trans hdev')

/-! ## A thread -/

/-- A thread exempts what stays, and erases the rest of what was loaded. -/
structure Works (curr : SimState) (l0 : ProxyInfo → List String) (t : Thread)
    (loaded : List String) : Prop where
  exempts : ∀ name, decide (getModelID name ∈ t.arg.exemptingIds) = keeps curr t.arg.pPInfo name
  iterating : ∀ it2, t.pc = .iterating it2 →
    Sweep.Swept (keeps curr t.arg.pPInfo) (l0 t.arg.pPInfo) loaded it2
  past : (∀ it2, t.pc ≠ .iterating it2) →
    loaded = (l0 t.arg.pPInfo).filter (keeps curr t.arg.pPInfo)

/-- From the loop on. -/
inductive Passes : UnloadPc → UnloadPc → Prop
  | toShutdown : Passes .waiting .shuttingDown
  | past : Passes .waiting .ending
  | shutDown : Passes .shuttingDown .ending
  | clear : Passes .ending .done

theorem Passes.not_iterating {pc' : UnloadPc} (h : Passes pc pc') :
    (∀ it2, pc ≠ .iterating it2) ∧ ∀ it2, pc' ≠ .iterating it2 := by
  cases h <;> exact ⟨by simp, by simp⟩

/-- A thread turns its loop, leaves it, or goes on behind it and does nothing to
the loaded models. -/
theorem Thread.step_cases
    (h : t.step allowRepart loaded flags = some (pc, loaded', flags')) :
    (∃ it2 it2', t.pc = .iterating it2 ∧ pc = .iterating it2' ∧ flags' = flags ∧
      Sweep.turn (fun name => decide (getModelID name ∈ t.arg.exemptingIds)) loaded it2 =
        some (loaded', it2')) ∨
    (∃ it2, t.pc = .iterating it2 ∧ pc = .waiting ∧ flags' = flags ∧ loaded' = loaded ∧
      Sweep.turn (fun name => decide (getModelID name ∈ t.arg.exemptingIds)) loaded it2 = none) ∨
    (Passes t.pc pc ∧ loaded' = loaded) := by
  unfold Thread.step at h
  split at h
  case h_1 it2 hpc =>
    split at h
    case h_1 loaded1 it2' hturn =>
      simp only [Option.some.injEq, Prod.mk.injEq] at h
      obtain ⟨rfl, rfl, rfl⟩ := h
      exact Or.inl ⟨it2, it2', hpc, rfl, rfl, hturn⟩
    case h_2 hend =>
      simp only [Option.some.injEq, Prod.mk.injEq] at h
      obtain ⟨rfl, rfl, rfl⟩ := h
      exact Or.inr (Or.inl ⟨it2, hpc, rfl, rfl, rfl, hend⟩)
  case h_2 hpc =>
    rw [hpc]
    split at h
    case isTrue =>
      split at h
      case isTrue =>
        simp only [Option.some.injEq, Prod.mk.injEq] at h
        obtain ⟨rfl, rfl, rfl⟩ := h
        exact Or.inr (Or.inr ⟨.toShutdown, rfl⟩)
      case isFalse => cases h
    case isFalse =>
      simp only [Option.some.injEq, Prod.mk.injEq] at h
      obtain ⟨rfl, rfl, rfl⟩ := h
      exact Or.inr (Or.inr ⟨.past, rfl⟩)
  case h_3 hpc =>
    rw [hpc]
    simp only [Option.some.injEq, Prod.mk.injEq] at h
    obtain ⟨rfl, rfl, rfl⟩ := h
    exact Or.inr (Or.inr ⟨.shutDown, rfl⟩)
  case h_4 hpc =>
    rw [hpc]
    simp only [Option.some.injEq, Prod.mk.injEq] at h
    obtain ⟨rfl, rfl, rfl⟩ := h
    exact Or.inr (Or.inr ⟨.clear, rfl⟩)
  case h_5 => cases h

theorem Works.step (h : Works curr l0 t loaded)
    (hstep : t.step allowRepart loaded flags = some (pc, loaded', flags')) :
    Works curr l0 { t with pc } loaded' := by
  have hkeep : (fun name => decide (getModelID name ∈ t.arg.exemptingIds)) =
      keeps curr t.arg.pPInfo := funext h.exempts
  rcases Thread.step_cases hstep with ⟨it2, it2', hpc, rfl, -, hturn⟩ |
    ⟨it2, hpc, rfl, -, rfl, hend⟩ | ⟨hpass, rfl⟩
  · rw [hkeep] at hturn
    refine ⟨h.exempts, ?_, fun hne => absurd rfl (hne it2')⟩
    rintro it ⟨⟩
    exact (h.iterating it2 hpc).turn hturn
  · rw [hkeep] at hend
    exact ⟨h.exempts, by simp, fun _ => (h.iterating it2 hpc).ends hend⟩
  · obtain ⟨hne, hne'⟩ := hpass.not_iterating
    exact ⟨h.exempts, fun it2 hit => absurd hit (hne' it2), fun _ => h.past hne⟩

/-! ## All threads -/

/-- Each proxy has one thread at most, which has been started for a node of the
state before; the proxies without a thread are as they were. -/
structure Threads (sys : SysMonitor) (prev curr : SimState) (l0 models : ProxyInfo → List String)
    (threads : List Thread) : Prop where
  nodup : (started threads).Nodup
  named : ∀ p ∈ started threads, ∃ e ∈ nodesOf prev, Names sys e p
  untouched : ∀ p, p ∉ started threads → models p = l0 p
  works : ∀ t ∈ threads, Works curr l0 t (models t.arg.pPInfo)

theorem mem_started_append {arg : LoadArgs} {pc : UnloadPc} :
    p ∈ started (threads ++ [⟨arg, pc⟩]) ↔ p ∈ started threads ∨ p = arg.pPInfo := by
  simp [started]

/-- One more thread, for a proxy without one. -/
theorem Threads.start {arg : LoadArgs} (h : Threads sys prev curr l0 models threads)
    (hnew : arg.pPInfo ∉ started threads) (hnamed : ∃ e ∈ nodesOf prev, Names sys e arg.pPInfo)
    (hexempt : ∀ name, keeps curr arg.pPInfo name = true ↔ getModelID name ∈ arg.exemptingIds) :
    Threads sys prev curr l0 models (threads ++ [⟨arg, .iterating 0⟩]) := by
  refine ⟨?_, fun p hp => ?_, fun p hp => ?_, fun t ht => ?_⟩
  · rw [started, List.map_append, List.map_singleton]
    refine List.nodup_append.mpr ⟨h.nodup, List.nodup_singleton _, fun p hp q hq hpq => ?_⟩
    rw [hpq, List.mem_singleton.mp hq] at hp
    exact hnew hp
  · rcases mem_started_append.mp hp with hp | rfl
    · exact h.named p hp
    · exact hnamed
  · exact h.untouched p fun hin => hp (mem_started_append.mpr (Or.inl hin))
  · rcases List.mem_append.mp ht with ht | ht
    · exact h.works t ht
    · obtain rfl := List.mem_singleton.mp ht
      refine ⟨fun name => ?_, ?_, fun hne => absurd rfl (hne 0)⟩
      · rw [Bool.eq_iff_iff, decide_eq_true_eq, hexempt]
      · rintro it2 ⟨⟩
        rw [h.untouched _ hnew]
        exact .start _ _

theorem started_set {i : Nat} (hi : threads[i]? = some t) (pc : UnloadPc) :
    started (threads.set i { t with pc }) = started threads := by
  refine List.ext_getElem? fun j => ?_
  rw [started, started, List.getElem?_map, List.getElem?_map, List.getElem?_set]
  by_cases hij : i = j
  · subst hij
    obtain ⟨hlt, -⟩ := List.getElem?_eq_some_iff.mp hi
    rw [if_pos rfl, if_pos hlt, hi]
    rfl
  · rw [if_neg hij]

/-- Another thread has another proxy. -/
theorem Threads.other {i j : Nat} {t' : Thread} (h : Threads sys prev curr l0 models threads)
    (hi : threads[i]? = some t) (hj : threads[j]? = some t') (hij : i ≠ j) :
    t'.arg.pPInfo ≠ t.arg.pPInfo := by
  intro heq
  have hsame : (started threads)[i]? = (started threads)[j]? := by
    rw [started, List.getElem?_map, List.getElem?_map, hi, hj, Option.map_some, Option.map_some, heq]
  have hlt : i < (started threads).length := by
    rw [started, List.length_map]
    exact (List.getElem?_eq_some_iff.mp hi).1
  exact hij ((List.getElem?_inj hlt h.nodup).mp hsame)

/-- One thread takes a step. -/
theorem Threads.step {i : Nat} (h : Threads sys prev curr l0 models threads)
    (hi : threads[i]? = some t)
    (hstep : t.step allowRepart (models t.arg.pPInfo) flags = some (pc, loaded, flags')) :
    Threads sys prev curr l0 (Function.update models t.arg.pPInfo loaded)
      (threads.set i { t with pc }) := by
  have hmem : t ∈ threads := List.mem_of_getElem? hi
  refine ⟨?_, ?_, fun p hp => ?_, fun t' ht' => ?_⟩
  · rw [started_set hi]
    exact h.nodup
  · rw [started_set hi]
    exact h.named
  · rw [started_set hi] at hp
    have hne : p ≠ t.arg.pPInfo := by
      rintro rfl
      exact hp (List.mem_map.mpr ⟨t, hmem, rfl⟩)
    rw [Function.update_of_ne hne]
    exact h.untouched p hp
  · obtain ⟨j, hj⟩ := List.mem_iff_getElem?.mp ht'
    rw [List.getElem?_set] at hj
    split at hj
    case isTrue =>
      split at hj
      case isTrue =>
        obtain rfl := Option.some.inj hj
        rw [Function.update_self]
        exact (h.works t hmem).step hstep
      case isFalse => cases hj
    case isFalse hij =>
      rw [Function.update_of_ne (h.other hi hj hij)]
      exact h.works t' (List.mem_of_getElem? hj)

/-! ## The scheduler thread -/

/-- A proxy that needs nothing more from the scheduler thread: it is one of
those with a thread, or all its models stay. -/
def Handled (curr : SimState) (l0 : ProxyInfo → List String) (ps : List ProxyInfo) (p : ProxyInfo) :
    Prop :=
  p ∈ ps ∨ ∀ name ∈ l0 p, keeps curr p name = true

/-- The nodes not visited have proxies without threads, the proxies of the
others are handled, all but the current one. -/
structure Ahead (sys : SysMonitor) (prev curr : SimState) (l0 : ProxyInfo → List String)
    (ps : List ProxyInfo) (current : Option ProxyInfo) (todo : List (Nat × Node)) : Prop where
  sub : ∀ e ∈ todo, e ∈ nodesOf prev
  keys : (todo.map keyOf).Nodup
  fresh : ∀ e ∈ todo, ∀ p, Names sys e p → p ∉ ps ∧ current ≠ some p
  handled : ∀ e ∈ nodesOf prev, e ∈ todo ∨ ∀ p, Names sys e p → current = some p ∨
    Handled curr l0 ps p

/-- The search for the node of a proxy. What stays on the proxy is on one of
the nodes to come, until the node is found. -/
structure Searches (sys : SysMonitor) (prev curr : SimState) (l0 : ProxyInfo → List String)
    (ps : List ProxyInfo) (p : ProxyInfo) (node : Node) (others : List Node) (found : Bool) : Prop where
  named : ∃ e ∈ nodesOf prev, Names sys e p
  key_eq : node.key = (p.cap, p.dedupNum)
  ids : ∀ n ∈ others, (n.id : Int) = p.devID
  keys : (others.map Node.key).Nodup
  after : found = true → Handled curr l0 ps p ∧ ∀ n ∈ others, n.key ≠ node.key
  before : found = false → p ∉ ps ∧ ∀ name, keeps curr p name = true ↔
    ∃ n ∈ others, n.key = node.key ∧ ∃ t ∈ n.vTaskList, t.id = getModelID name

def CallerOK (sys : SysMonitor) (prev curr : SimState) (l0 : ProxyInfo → List String)
    (ps : List ProxyInfo) : Caller → Prop
  | .visiting todo => Ahead sys prev curr l0 ps none todo
  | .comparing p node others found todo =>
      Ahead sys prev curr l0 ps (some p) todo ∧ Searches sys prev curr l0 ps p node others found

theorem Handled.mono (h : Handled curr l0 ps p) (hsub : ∀ p ∈ ps, p ∈ ps') :
    Handled curr l0 ps' p :=
  h.imp_left (hsub p)

/-- The current proxy is handled, with or without a thread. -/
theorem Ahead.close {todo : List (Nat × Node)} (h : Ahead sys prev curr l0 ps (some p) todo)
    (hsub : ∀ q ∈ ps, q ∈ ps') (hnew : ∀ q ∈ ps', q ∈ ps ∨ q = p)
    (hp : Handled curr l0 ps' p) : Ahead sys prev curr l0 ps' none todo := by
  refine ⟨h.sub, h.keys, fun e he q hq => ⟨fun hin => ?_, by simp⟩, fun e he => ?_⟩
  · obtain ⟨hold, hne⟩ := h.fresh e he q hq
    rcases hnew q hin with hin | rfl
    · exact hold hin
    · exact hne rfl
  · refine (h.handled e he).imp_right fun hall q hq => Or.inr ?_
    rcases hall q hq with heq | hq
    · rwa [← Option.some.inj heq]
    · exact hq.mono hsub

/-- While the current proxy gets a thread. -/
theorem Ahead.started {todo : List (Nat × Node)} (h : Ahead sys prev curr l0 ps (some p) todo)
    (hsub : ∀ q ∈ ps, q ∈ ps') (hnew : ∀ q ∈ ps', q ∈ ps ∨ q = p) :
    Ahead sys prev curr l0 ps' (some p) todo := by
  refine ⟨h.sub, h.keys, fun e he q hq => ?_, fun e he => ?_⟩
  · obtain ⟨hold, hne⟩ := h.fresh e he q hq
    refine ⟨fun hin => ?_, hne⟩
    rcases hnew q hin with hin | rfl
    · exact hold hin
    · exact hne rfl
  · exact (h.handled e he).imp_right fun hall q hq => (hall q hq).imp_right (·.mono hsub)

/-- A node is visited. -/
theorem Ahead.visit {devID : Nat} {node : Node} {todo : List (Nat × Node)} (hsys : Homed sys)
    (h : Ahead sys prev curr l0 ps none ((devID, node) :: todo)) (hp : Names sys (devID, node) p) :
    Ahead sys prev curr l0 ps (some p) todo := by
  obtain ⟨hnotin, hkeys⟩ := List.nodup_cons.mp h.keys
  refine ⟨fun e he => h.sub e (List.mem_cons_of_mem _ he), hkeys, fun e he q hq => ?_,
    fun e he => ?_⟩
  · refine ⟨(h.fresh e (List.mem_cons_of_mem _ he) q hq).1, fun heq => hnotin ?_⟩
    rw [← Option.some.inj heq] at hq
    exact List.mem_map.mpr ⟨e, he, hq.key_eq hsys hp⟩
  · rcases h.handled e he with hin | hall
    · rcases List.mem_cons.mp hin with rfl | hin
      · exact Or.inr fun q hq => Or.inl (by rw [← hq, ← hp])
      · exact Or.inl hin
    · refine Or.inr fun q hq => (hall q hq).imp_left (by simp)

/-! ### The search -/

theorem Searches.begin {devID : Nat} {node : Node} (hsys : Homed sys)
    (hcurr : AllGPUs DistinctNodes curr) (hin : (devID, node) ∈ nodesOf prev)
    (hp : Names sys (devID, node) p) (hnew : p ∉ ps) :
    Searches sys prev curr l0 ps p node (nodesAt curr devID) false := by
  obtain ⟨hdev, hkey⟩ := hp.found hsys
  refine ⟨⟨_, hin, hp⟩, hkey, fun n hn => ?_, ?_, by simp, fun _ => ⟨hnew, fun name => ?_⟩⟩
  · unfold nodesAt at hn
    split at hn
    case h_1 g hg => rw [(hcurr _ g hg).id_eq n hn, hdev]
    case h_2 => cases hn
  · unfold nodesAt
    split
    case h_1 g hg => exact (hcurr _ g hg).nodup
    case h_2 => exact List.nodup_nil
  · rw [keeps_iff, hdev, Int.toNat_natCast, hkey]

theorem Searches.next {node node2 : Node} {others : List Node} {found : Bool}
    (h : Searches sys prev curr l0 ps p node (node2 :: others) found) (hne : node2.key ≠ node.key) :
    Searches sys prev curr l0 ps p node others found := by
  refine ⟨h.named, h.key_eq, fun n hn => h.ids n (List.mem_cons_of_mem _ hn),
    (List.nodup_cons.mp h.keys).2, fun hf => ?_, fun hf => ?_⟩
  · obtain ⟨hp, hall⟩ := h.after hf
    exact ⟨hp, fun n hn => hall n (List.mem_cons_of_mem _ hn)⟩
  · obtain ⟨hnew, hkeeps⟩ := h.before hf
    refine ⟨hnew, fun name => (hkeeps name).trans ?_⟩
    constructor
    · rintro ⟨n, hn, hkey, ht⟩
      rcases List.mem_cons.mp hn with rfl | hn
      · exact absurd hkey hne
      · exact ⟨n, hn, hkey, ht⟩
    · rintro ⟨n, hn, hkey, ht⟩
      exact ⟨n, List.mem_cons_of_mem _ hn, hkey, ht⟩

/-- A node is found once. -/
theorem Searches.unfound {node node2 : Node} {others : List Node} {found : Bool}
    (h : Searches sys prev curr l0 ps p node (node2 :: others) found) (heq : node2.key = node.key) :
    found = false := by
  cases found with
  | true => exact absurd heq ((h.after rfl).2 node2 (List.mem_cons_self ..))
  | false => rfl

/-- The node that is found is the only one, and its tasks say what stays. -/
theorem Searches.matched {node node2 : Node} {others : List Node} {found : Bool}
    (h : Searches sys prev curr l0 ps p node (node2 :: others) found) (heq : node2.key = node.key) :
    p ∉ ps ∧ (∀ n ∈ others, n.key ≠ node.key) ∧
      ∀ name, keeps curr p name = true ↔ ∃ t ∈ node2.vTaskList, t.id = getModelID name := by
  have hothers : ∀ n ∈ others, n.key ≠ node.key := by
    intro n hn hkey
    refine (List.nodup_cons.mp h.keys).1 (List.mem_map.mpr ⟨n, hn, ?_⟩)
    rw [hkey, heq]
  obtain rfl := h.unfound heq
  obtain ⟨hnew, hkeeps⟩ := h.before rfl
  refine ⟨hnew, hothers, fun name => (hkeeps name).trans ?_⟩
  constructor
  · rintro ⟨n, hn, hkey, ht⟩
    rcases List.mem_cons.mp hn with rfl | hn
    · exact ht
    · exact absurd hkey (hothers n hn)
  · rintro ht
    exact ⟨node2, List.mem_cons_self .., heq, ht⟩

/-- The search goes on behind the node that was found. -/
theorem Searches.found {node node2 : Node} {others : List Node} {found : Bool}
    (h : Searches sys prev curr l0 ps p node (node2 :: others) found) (heq : node2.key = node.key)
    (hp : Handled curr l0 ps' p) : Searches sys prev curr l0 ps' p node others true :=
  ⟨h.named, h.key_eq, fun n hn => h.ids n (List.mem_cons_of_mem _ hn),
    (List.nodup_cons.mp h.keys).2, fun _ => ⟨hp, (h.matched heq).2.1⟩, by simp⟩

theorem matches_iff {node node2 : Node} :
    node2.resourcePntg = node.resourcePntg ∧ node2.dedupNum = node.dedupNum ↔
      node2.key = node.key := by
  simp [Node.key]

/-- A proxy that has no model to unload has none that does not stay. -/
theorem stays_of_needToUnload {node2 : Node} (h : needToUnload node2 p loaded = some false)
    (hkeeps : ∀ name, keeps curr p name = true ↔ ∃ t ∈ node2.vTaskList, t.id = getModelID name) :
    ∀ name ∈ loaded, keeps curr p name = true := by
  intro name hname
  unfold needToUnload at h
  split at h
  case isTrue =>
    split at h
    case isTrue hnil =>
      rw [List.isEmpty_iff.mp hnil] at hname
      cases hname
    case isFalse =>
      have hall := List.any_eq_false.mp (Option.some.inj h) name hname
      rw [hkeeps]
      simpa using hall
  case isFalse => cases h

/-! ## Every step -/

/-- The invariant of `unloadModels` and its threads. -/
structure Inv (sys : SysMonitor) (prev curr : SimState) (l0 : ProxyInfo → List String) (s : State) :
    Prop where
  threads : Threads sys prev curr l0 s.loadedModels s.threads
  caller : CallerOK sys prev curr l0 (started s.threads) s.caller

theorem nodup_keyOf (h : AllGPUs DistinctNodes prev) : ((nodesOf prev).map keyOf).Nodup := by
  have hkeys : (nodesOf prev).map keyOf =
      prev.vGPUList.flatMap fun g => (g.vNodeList.map Node.key).map fun k => (g.GPUID, k) := by
    simp [nodesOf, List.map_flatMap, keyOf, Function.comp_def]
  have hdiffer : prev.vGPUList.Pairwise fun g g' => g.GPUID ≠ g'.GPUID := by
    refine List.pairwise_iff_getElem.mpr fun i j hi hj hij heq => ?_
    rw [(h i _ (List.getElem?_eq_getElem hi)).GPUID_eq,
      (h j _ (List.getElem?_eq_getElem hj)).GPUID_eq] at heq
    exact absurd heq (Nat.ne_of_lt hij)
  rw [hkeys, List.nodup_flatMap]
  refine ⟨fun g hg => ?_, hdiffer.imp fun hne => ?_⟩
  · obtain ⟨i, hi⟩ := List.mem_iff_getElem?.mp hg
    exact (h i g hi).nodup.map fun k k' hk => (Prod.mk.inj hk).2
  · rintro x hx hx'
    obtain ⟨k, -, rfl⟩ := List.mem_map.mp hx
    obtain ⟨k', -, heq⟩ := List.mem_map.mp hx'
    exact hne (Prod.mk.inj heq).1.symm

theorem Inv.start (h : AllGPUs DistinctNodes prev) (flags : ProxyInfo → Flags) :
    Inv sys prev curr l0 (start prev l0 flags) := by
  refine ⟨⟨List.nodup_nil, nofun, fun _ _ => rfl, nofun⟩, ?_⟩
  exact ⟨fun e he => he, nodup_keyOf h, fun e _ q _ => ⟨nofun, nofun⟩, fun e he => Or.inl he⟩

/-- What the scheduler thread does in a step. -/
inductive Moves (sys : SysMonitor) (curr : SimState) (s : State) : State → Prop
  | skip {devID : Nat} {node : Node} {todo : List (Nat × Node)} {p : ProxyInfo} :
      s.caller = .visiting ((devID, node) :: todo) → Names sys (devID, node) p →
      s.loadedModels p = [] → Moves sys curr s { s with caller := .visiting todo }
  | search {devID : Nat} {node : Node} {todo : List (Nat × Node)} {p : ProxyInfo} :
      s.caller = .visiting ((devID, node) :: todo) → Names sys (devID, node) p →
      s.loadedModels p ≠ [] →
      Moves sys curr s { s with caller := .comparing p node (nodesAt curr devID) false todo }
  | unload {p : ProxyInfo} {node node2 : Node} {others : List Node} {found : Bool}
      {todo : List (Nat × Node)} :
      s.caller = .comparing p node (node2 :: others) found todo → node2.key = node.key →
      needToUnload node2 p (s.loadedModels p) = some true →
      Moves sys curr s { s.startUnload ⟨p, node2.vTaskList.map fun t => (t.id, 0)⟩ with
        caller := .comparing p node others true todo }
  | keep {p : ProxyInfo} {node node2 : Node} {others : List Node} {found : Bool}
      {todo : List (Nat × Node)} :
      s.caller = .comparing p node (node2 :: others) found todo → node2.key = node.key →
      needToUnload node2 p (s.loadedModels p) = some false →
      Moves sys curr s { s with caller := .comparing p node others true todo }
  | pass {p : ProxyInfo} {node node2 : Node} {others : List Node} {found : Bool}
      {todo : List (Nat × Node)} :
      s.caller = .comparing p node (node2 :: others) found todo → node2.key ≠ node.key →
      Moves sys curr s { s with caller := .comparing p node others found todo }
  | back {p : ProxyInfo} {node : Node} {todo : List (Nat × Node)} :
      s.caller = .comparing p node [] true todo →
      Moves sys curr s { s with caller := .visiting todo }
  | unloadAll {p : ProxyInfo} {node : Node} {todo : List (Nat × Node)} :
      s.caller = .comparing p node [] false todo →
      Moves sys curr s { s.startUnload ⟨p, []⟩ with caller := .visiting todo }

theorem callerStep_moves (h : callerStep sys curr s = some s') : Moves sys curr s s' := by
  unfold callerStep at h
  split at h
  case h_1 => cases h
  case h_2 devID node todo heq =>
    obtain ⟨p, hp, rfl⟩ := Option.map_eq_some_iff.mp h
    split
    case isTrue hnil => exact .skip heq hp (List.isEmpty_iff.mp hnil)
    case isFalse hne => exact .search heq hp fun hnil => hne (List.isEmpty_iff.mpr hnil)
  case h_3 p node node2 others found todo heq =>
    split at h
    case isTrue hmatch =>
      obtain ⟨need, hneed, rfl⟩ := Option.map_eq_some_iff.mp h
      cases need with
      | true => exact .unload heq (matches_iff.mp hmatch) hneed
      | false => exact .keep heq (matches_iff.mp hmatch) hneed
    case isFalse hmatch =>
      obtain rfl := Option.some.inj h
      exact .pass heq fun hkey => hmatch (matches_iff.mpr hkey)
  case h_4 p node todo heq =>
    obtain rfl := Option.some.inj h
    exact .back heq
  case h_5 p node todo heq =>
    obtain rfl := Option.some.inj h
    exact .unloadAll heq

theorem Inv.moves (hsys : Homed sys) (hcurr : AllGPUs DistinctNodes curr)
    (h : Inv sys prev curr l0 s) (hmoves : Moves sys curr s s') : Inv sys prev curr l0 s' := by
  obtain ⟨hthreads, hcaller⟩ := h
  cases hmoves with
  | skip heq hp hnil =>
      rw [heq] at hcaller
      have hl0 := hthreads.untouched _ (hcaller.fresh _ (List.mem_cons_self ..) _ hp).1
      rw [hnil] at hl0
      refine ⟨hthreads, ?_⟩
      exact (Ahead.visit hsys hcaller hp).close (fun q hq => hq) (fun q hq => Or.inl hq)
        (Or.inr fun name hname => by rw [← hl0] at hname; cases hname)
  | search heq hp _ =>
      rw [heq] at hcaller
      have hnew := (hcaller.fresh _ (List.mem_cons_self ..) _ hp).1
      refine ⟨hthreads, Ahead.visit hsys hcaller hp, ?_⟩
      exact Searches.begin hsys hcurr (hcaller.sub _ (List.mem_cons_self ..)) hp hnew
  | unload heq hkey _ =>
      rw [heq] at hcaller
      obtain ⟨hahead, hsearch⟩ := hcaller
      obtain ⟨hnew, -, hkeeps⟩ := hsearch.matched hkey
      refine ⟨hthreads.start hnew hsearch.named fun name => ?_, ?_, ?_⟩
      · rw [hkeeps]
        simp [LoadArgs.exemptingIds]
      · exact hahead.started (fun q hq => mem_started_append.mpr (Or.inl hq))
          fun q hq => mem_started_append.mp hq
      · exact hsearch.found hkey (Or.inl (mem_started_append.mpr (Or.inr rfl)))
  | keep heq hkey hneed =>
      rw [heq] at hcaller
      obtain ⟨hahead, hsearch⟩ := hcaller
      obtain ⟨hnew, -, hkeeps⟩ := hsearch.matched hkey
      rw [hthreads.untouched _ hnew] at hneed
      exact ⟨hthreads, hahead, hsearch.found hkey (Or.inr (stays_of_needToUnload hneed hkeeps))⟩
  | pass heq hkey =>
      rw [heq] at hcaller
      obtain ⟨hahead, hsearch⟩ := hcaller
      exact ⟨hthreads, hahead, hsearch.next hkey⟩
  | back heq =>
      rw [heq] at hcaller
      obtain ⟨hahead, hsearch⟩ := hcaller
      refine ⟨hthreads, ?_⟩
      exact hahead.close (fun q hq => hq) (fun q hq => Or.inl hq) (hsearch.after rfl).1
  | unloadAll heq =>
      rw [heq] at hcaller
      obtain ⟨hahead, hsearch⟩ := hcaller
      obtain ⟨hnew, hkeeps⟩ := hsearch.before rfl
      refine ⟨hthreads.start hnew hsearch.named fun name => ?_, ?_⟩
      · rw [hkeeps]
        simp [LoadArgs.exemptingIds]
      · exact hahead.close (fun q hq => mem_started_append.mpr (Or.inl hq))
          (fun q hq => mem_started_append.mp hq) (Or.inl (mem_started_append.mpr (Or.inr rfl)))

/-- What a step of a thread does. -/
theorem step_thread {i : Nat} (h : step sys curr allowRepart (.thread i) s = some s') :
    ∃ t pc loaded flags, s.threads[i]? = some t ∧
      t.step allowRepart (s.loadedModels t.arg.pPInfo) (s.flags t.arg.pPInfo) =
        some (pc, loaded, flags) ∧
      s' = { s with
        loadedModels := Function.update s.loadedModels t.arg.pPInfo loaded
        flags := Function.update s.flags t.arg.pPInfo flags
        threads := s.threads.set i { t with pc } } := by
  simp only [step] at h
  split at h
  case h_1 => cases h
  case h_2 t hi =>
    split at h
    case h_1 => cases h
    case h_2 pc loaded flags hthread =>
      exact ⟨t, pc, loaded, flags, hi, hthread, (Option.some.inj h).symm⟩

theorem Inv.step {a : Act} (hsys : Homed sys) (hcurr : AllGPUs DistinctNodes curr)
    (h : Inv sys prev curr l0 s) (hstep : step sys curr allowRepart a s = some s') :
    Inv sys prev curr l0 s' := by
  cases a with
  | caller => exact h.moves hsys hcurr (callerStep_moves hstep)
  | thread i =>
      obtain ⟨t, pc, loaded, flags, hi, hthread, rfl⟩ := step_thread hstep
      refine ⟨h.threads.step hi hthread, ?_⟩
      rw [started_set hi]
      exact h.caller

/-! ## It comes to an end

Every step brings the end nearer, and as long as the assertions hold there is a
next one. -/

/-- The steps a thread may have left, for these loaded models of its proxy. -/
def UnloadPc.left (loaded : List String) : UnloadPc → Nat
  | .iterating it2 => loaded.length - it2 + 4
  | .waiting => 3
  | .shuttingDown => 2
  | .ending => 1
  | .done => 0

/-- The steps of a new thread. -/
def ofThread (l0 : ProxyInfo → List String) (p : ProxyInfo) : Nat := (l0 p).length + 4

/-- The steps that the visit of a node may take, with those of its thread. -/
def ofVisit (sys : SysMonitor) (curr : SimState) (l0 : ProxyInfo → List String) (e : Nat × Node) :
    Nat :=
  (nodesAt curr e.1).length + 2 +
    ((getProxyInfo sys e.1 e.2.resourcePntg e.2.dedupNum).map (ofThread l0)).getD 0

def Caller.left (sys : SysMonitor) (curr : SimState) (l0 : ProxyInfo → List String) : Caller → Nat
  | .visiting todo => (todo.map (ofVisit sys curr l0)).sum
  | .comparing p _ others found todo =>
      others.length + 1 + (if found then 0 else ofThread l0 p) + (todo.map (ofVisit sys curr l0)).sum

def State.left (sys : SysMonitor) (curr : SimState) (l0 : ProxyInfo → List String) (s : State) :
    Nat :=
  s.caller.left sys curr l0 + (s.threads.map fun t => t.pc.left (s.loadedModels t.arg.pPInfo)).sum

theorem Passes.left_lt {pc' : UnloadPc} (h : Passes pc pc') : pc'.left loaded < pc.left loaded := by
  cases h <;> simp [UnloadPc.left]

theorem Thread.left_step (hstep : t.step allowRepart loaded flags = some (pc, loaded', flags')) :
    pc.left loaded' < t.pc.left loaded := by
  rcases Thread.step_cases hstep with ⟨it2, it2', hpc, rfl, -, hturn⟩ |
    ⟨it2, hpc, rfl, -, rfl, -⟩ | ⟨hpass, rfl⟩
  · have hnearer := Sweep.turn_nearer hturn
    simp only [hpc, UnloadPc.left]
    omega
  · simp only [hpc, UnloadPc.left]
    omega
  · exact hpass.left_lt

theorem ofVisit_names (hp : Names sys e p) :
    ofVisit sys curr l0 e = (nodesAt curr e.1).length + 2 + ofThread l0 p := by
  rw [ofVisit, hp, Option.map_some, Option.getD_some]

theorem left_moves (h : Inv sys prev curr l0 s) (hmoves : Moves sys curr s s') :
    s'.left sys curr l0 < s.left sys curr l0 := by
  obtain ⟨hthreads, hcaller⟩ := h
  cases hmoves with
  | skip heq hp _ | search heq hp _ =>
      simp only [State.left, heq, Caller.left, List.map_cons, List.sum_cons, ofVisit_names hp,
        Bool.false_eq_true, if_false]
      omega
  | unload heq hkey _ =>
      rw [heq] at hcaller
      obtain ⟨hnew, -, -⟩ := hcaller.2.matched hkey
      simp only [State.left, heq, Caller.left, State.startUnload, List.map_append, List.sum_append,
        List.map_singleton, List.sum_singleton, UnloadPc.left, hthreads.untouched _ hnew,
        hcaller.2.unfound hkey, ofThread, if_true, Bool.false_eq_true, if_false, List.length_cons]
      omega
  | keep heq hkey _ =>
      rw [heq] at hcaller
      simp only [State.left, heq, Caller.left, hcaller.2.unfound hkey, Bool.false_eq_true, if_true,
        if_false, List.length_cons]
      omega
  | pass heq _ =>
      simp only [State.left, heq, Caller.left, List.length_cons]
      omega
  | back heq =>
      simp only [State.left, heq, Caller.left, if_true]
      omega
  | unloadAll heq =>
      rw [heq] at hcaller
      simp only [State.left, heq, Caller.left, State.startUnload, List.map_append, List.sum_append,
        List.map_singleton, List.sum_singleton, UnloadPc.left,
        hthreads.untouched _ (hcaller.2.before rfl).1, ofThread, Bool.false_eq_true, if_false]
      omega

/-- **Every step brings the end nearer.** -/
theorem left_step {a : Act} (h : Inv sys prev curr l0 s)
    (hstep : step sys curr allowRepart a s = some s') :
    s'.left sys curr l0 < s.left sys curr l0 := by
  cases a with
  | caller => exact left_moves h (callerStep_moves hstep)
  | thread i =>
      obtain ⟨t, pc, loaded, flags, hi, hthread, rfl⟩ := step_thread hstep
      refine Nat.add_lt_add_left (Pool.sum_set_lt hi ?_ fun j u hj hij => ?_) _
      · simp only [Function.update_self]
        exact Thread.left_step hthread
      · simp only [Function.update_of_ne (h.threads.other hi hj hij)]

/-- Has not come to `shutdownProxy_sync`. -/
def UnloadPc.early : UnloadPc → Bool
  | .iterating _ | .waiting => true
  | _ => false

theorem Passes.not_early {pc' : UnloadPc} (h : Passes pc pc') : pc'.early = false := by
  cases h <;> rfl

/-- The nodes of the state before have proxies, which are up until their threads
come to `shutdownProxy_sync`. -/
structure Up (sys : SysMonitor) (prev : SimState) (status : ProxyInfo → Flags)
    (threads : List Thread) : Prop where
  proxy : ∀ e ∈ nodesOf prev, ∃ p, Names sys e p
  up : ∀ e ∈ nodesOf prev, ∀ p, Names sys e p →
    (∀ t ∈ threads, t.arg.pPInfo = p → t.pc.early = true) →
    (status p).isConnected = true ∧ (status p).isBooted = true

theorem Up.start {status : ProxyInfo → Flags} {arg : LoadArgs} (h : Up sys prev status threads) :
    Up sys prev
      (Function.update status arg.pPInfo { status arg.pPInfo with isUnloading := true })
      (threads ++ [⟨arg, pc⟩]) := by
  refine ⟨h.proxy, fun e he p hp hearly => ?_⟩
  have hold := h.up e he p hp fun t ht => hearly t (List.mem_append_left _ ht)
  by_cases heq : p = arg.pPInfo
  · subst heq
    rw [Function.update_self]
    exact hold
  · rw [Function.update_of_ne heq]
    exact hold

theorem Threads.eq_of_proxy (h : Threads sys prev curr l0 models threads) {t' : Thread}
    (ht : t ∈ threads) (ht' : t' ∈ threads) (heq : t'.arg.pPInfo = t.arg.pPInfo) : t' = t :=
  List.inj_on_of_nodup_map h.nodup ht' ht heq

theorem Up.step {status : ProxyInfo → Flags} {i : Nat} (h : Up sys prev status threads)
    (hthreads : Threads sys prev curr l0 models threads) (hi : threads[i]? = some t)
    (hstep : t.step allowRepart loaded (status t.arg.pPInfo) = some (pc, loaded', flags)) :
    Up sys prev (Function.update status t.arg.pPInfo flags) (threads.set i { t with pc }) := by
  have hmem : t ∈ threads := List.mem_of_getElem? hi
  obtain ⟨hlt, -⟩ := List.getElem?_eq_some_iff.mp hi
  refine ⟨h.proxy, fun e he p hp hearly => ?_⟩
  by_cases heq : p = t.arg.pPInfo
  · subst heq
    rw [Function.update_self]
    have hpc : pc.early = true :=
      hearly { t with pc } (List.mem_of_getElem? (List.getElem?_set_self hlt)) rfl
    have hloop : flags = status t.arg.pPInfo ∧ t.pc.early = true := by
      rcases Thread.step_cases hstep with ⟨it2, it2', hit, -, hflags, -⟩ |
        ⟨it2, hit, -, hflags, -⟩ | ⟨hpass, -⟩
      · exact ⟨hflags, by rw [hit]; rfl⟩
      · exact ⟨hflags, by rw [hit]; rfl⟩
      · rw [hpass.not_early] at hpc
        cases hpc
    rw [hloop.1]
    refine h.up e he _ hp fun t' ht' hsame => ?_
    rw [hthreads.eq_of_proxy hmem ht' hsame]
    exact hloop.2
  · rw [Function.update_of_ne heq]
    refine h.up e he p hp fun t' ht' hsame => hearly t' ?_ hsame
    obtain ⟨j, hj⟩ := List.mem_iff_getElem?.mp ht'
    refine List.mem_of_getElem? (i := j) ?_
    rw [List.getElem?_set, if_neg ?_, hj]
    rintro rfl
    obtain rfl := Option.some.inj (hi.symm.trans hj)
    exact heq hsame.symm

theorem up_step {a : Act} (hinv : Inv sys prev curr l0 s) (h : Up sys prev s.flags s.threads)
    (hstep : step sys curr allowRepart a s = some s') : Up sys prev s'.flags s'.threads := by
  cases a with
  | thread i =>
      obtain ⟨t, pc, loaded, flags, hi, hthread, rfl⟩ := step_thread hstep
      exact h.step hinv.threads hi hthread
  | caller =>
      cases callerStep_moves hstep with
      | unload _ _ _ | unloadAll _ => exact h.start
      | _ => exact h

theorem Thread.exists_step (hpc : t.pc ≠ .done)
    (hup : t.pc.early = true → flags.isConnected = true ∧ flags.isBooted = true) :
    ∃ r, t.step allowRepart loaded flags = some r := by
  unfold Thread.step
  split
  case h_1 => split <;> exact ⟨_, rfl⟩
  case h_2 hwait =>
    rw [if_pos (hup (by rw [hwait]; rfl))]
    split <;> exact ⟨_, rfl⟩
  case h_3 | h_4 => exact ⟨_, rfl⟩
  case h_5 hdone => exact absurd hdone hpc

theorem exists_threadStep (hthreads : Threads sys prev curr l0 s.loadedModels s.threads)
    (h : Up sys prev s.flags s.threads) (ht : t ∈ s.threads) (hpc : t.pc ≠ .done) :
    ∃ a s', step sys curr allowRepart a s = some s' := by
  obtain ⟨i, hi⟩ := List.mem_iff_getElem?.mp ht
  obtain ⟨e, he, hp⟩ := hthreads.named _ (List.mem_map.mpr ⟨t, ht, rfl⟩)
  have hup : t.pc.early = true → (s.flags t.arg.pPInfo).isConnected = true ∧
      (s.flags t.arg.pPInfo).isBooted = true := by
    intro hearly
    refine h.up e he _ hp fun t' ht' hsame => ?_
    rw [hthreads.eq_of_proxy ht ht' hsame]
    exact hearly
  obtain ⟨r, hr⟩ : ∃ r, t.step allowRepart (s.loadedModels t.arg.pPInfo) (s.flags t.arg.pPInfo) =
      some r := Thread.exists_step hpc hup
  refine ⟨.thread i, ?_⟩
  simp only [step, hi, hr]
  exact ⟨_, rfl⟩

theorem exists_callerStep (hcaller : CallerOK sys prev curr l0 ps s.caller)
    (hproxy : ∀ e ∈ nodesOf prev, ∃ p, Names sys e p) (hc : s.caller ≠ .visiting []) :
    ∃ s', callerStep sys curr s = some s' := by
  unfold callerStep
  split
  case h_1 heq => exact absurd heq hc
  case h_2 devID node todo heq =>
    rw [heq] at hcaller
    obtain ⟨p, hp⟩ := hproxy _ (hcaller.sub _ (List.mem_cons_self ..))
    rw [show getProxyInfo sys devID node.resourcePntg node.dedupNum = some p from hp]
    exact ⟨_, rfl⟩
  case h_3 p node node2 others found todo heq =>
    rw [heq] at hcaller
    obtain ⟨-, hsearch⟩ := hcaller
    split
    case isTrue hmatch =>
      have hkey := (matches_iff.mp hmatch).trans hsearch.key_eq
      obtain ⟨hpart, hdedup⟩ := Prod.mk.inj hkey
      have hassert : node2.id = p.devID ∧ node2.resourcePntg = p.cap ∧ node2.dedupNum = p.dedupNum :=
        ⟨hsearch.ids _ (List.mem_cons_self ..), hpart, hdedup⟩
      rw [needToUnload, if_pos hassert]
      split <;> exact ⟨_, rfl⟩
    case isFalse => exact ⟨_, rfl⟩
  case h_4 | h_5 => exact ⟨_, rfl⟩

/-- Where nothing is left to do all is done. -/
theorem exists_step (hinv : Inv sys prev curr l0 s) (h : Up sys prev s.flags s.threads)
    (hnot : ¬ s.Completed) : ∃ a s', step sys curr allowRepart a s = some s' := by
  by_cases hc : s.caller = .visiting []
  · obtain ⟨t, ht, hpc⟩ : ∃ t ∈ s.threads, t.pc ≠ .done := by
      by_contra hall
      simp only [not_exists, not_and, not_not] at hall
      exact hnot ⟨hc, hall⟩
    exact exists_threadStep hinv.threads h ht hpc
  · exact ⟨.caller, exists_callerStep hinv.caller h.proxy hc⟩

theorem exists_completed (hsys : Homed sys) (hcurr : AllGPUs DistinctNodes curr)
    (hinv : Inv sys prev curr l0 s) (h : Up sys prev s.flags s.threads) :
    ∃ acts s', Machine.run (step sys curr allowRepart) acts s = some s' ∧ s'.Completed := by
  induction hleft : s.left sys curr l0 using Nat.strong_induction_on generalizing s with
  | _ k ih =>
      by_cases hdone : s.Completed
      · exact ⟨[], s, rfl, hdone⟩
      · obtain ⟨a, s1, hstep⟩ : ∃ a s1, step sys curr allowRepart a s = some s1 :=
          exists_step hinv h hdone
        have hlt := left_step hinv hstep
        obtain ⟨acts, s', hrun, hs'⟩ :=
          ih _ (hleft ▸ hlt) (hinv.step hsys hcurr hstep) (up_step hinv h hstep) rfl
        exact ⟨a :: acts, s', Machine.run_cons_eq_some.mpr ⟨s1, hstep, hrun⟩, hs'⟩

/-- No run takes more steps than there are. -/
theorem length_le_left {acts : List Act} (hsys : Homed sys) (hcurr : AllGPUs DistinctNodes curr)
    (hinv : Inv sys prev curr l0 s)
    (hrun : Machine.run (step sys curr allowRepart) acts s = some s') :
    acts.length + s'.left sys curr l0 ≤ s.left sys curr l0 := by
  induction acts generalizing s with
  | nil =>
      obtain rfl := Option.some.inj hrun
      simp
  | cons a acts ih =>
      obtain ⟨s1, hstep, hrest⟩ := Machine.run_cons_eq_some.mp hrun
      have hlt := left_step hinv hstep
      have hle := ih (hinv.step hsys hcurr hstep) hrest
      rw [List.length_cons]
      omega

/-! ## What is left in the end -/

/-- The node of a state with this GPU, partition and dedup number has a task of
the model. -/
def scheduledOn (sim : SimState) (devID : Nat) (cap dedupNum : Int) (name : String) : Bool :=
  sim.vGPUList.any fun g => g.GPUID == devID && g.vNodeList.any fun n =>
    n.resourcePntg == cap && n.dedupNum == dedupNum && n.vTaskList.any fun t =>
      (getModelName t.id).toOption.any fun m => m.name == name

theorem getModelName_ok {id : Int} {m : Model} :
    getModelName id = .ok m ↔ id = getModelID m.name := by
  constructor
  · intro h
    have hnonneg : 0 ≤ id := by
      by_contra hneg
      rw [getModelName, if_pos (not_le.mp hneg)] at h
      cases h
    rw [getModelName, if_neg (not_lt.mpr hnonneg)] at h
    have hat : idToModelName[id.toNat]? = some m := by
      split at h
      case h_1 m' hm' =>
        obtain rfl := Except.ok.inj h
        exact hm'
      case h_2 => cases h
    have hlt : id.toNat < idToModelName.length := (List.getElem?_eq_some_iff.mp hat).1
    have hsame := (List.getElem?_inj hlt (by decide)).mp (hat.trans (GlobalScheduler.getModelID_name m).symm)
    have hpos : 0 ≤ getModelID m.name := by cases m <;> decide
    omega
  · rintro rfl
    cases m <;> rfl

theorem mem_nodesAt (h : AllGPUs DistinctNodes curr) {devID : Nat} {n : Node} :
    n ∈ nodesAt curr devID ↔ ∃ g ∈ curr.vGPUList, g.GPUID = devID ∧ n ∈ g.vNodeList := by
  constructor
  · intro hn
    unfold nodesAt at hn
    split at hn
    case h_1 g hg => exact ⟨g, List.mem_of_getElem? hg, (h devID g hg).GPUID_eq, hn⟩
    case h_2 => cases hn
  · rintro ⟨g, hg, rfl, hn⟩
    obtain ⟨i, hi⟩ := List.mem_iff_getElem?.mp hg
    rw [(h i g hi).GPUID_eq, nodesAt, hi]
    exact hn

/-- A task of a model is known by the model's id and by its name. -/
theorem task_iff (t : Task) (m : Model) : t.id = getModelID m.name ↔
    ((getModelName t.id).toOption.any fun m' => m'.name == m.name) = true := by
  cases hname : getModelName t.id with
  | error err =>
      refine ⟨fun h => ?_, nofun⟩
      rw [getModelName_ok.mpr h] at hname
      cases hname
  | ok m' =>
      have hid := getModelName_ok.mp hname
      simp only [Except.toOption, Option.any_some, beq_iff_eq]
      refine ⟨fun h => ?_, fun h => by rw [hid, h]⟩
      rw [getModelName_ok.mpr h] at hname
      rw [Except.ok.inj hname]

/-- What a thread exempts is what the state after schedules on the proxy. -/
theorem keeps_eq (hsys : Homed sys) (hcurr : AllGPUs DistinctNodes curr) (hp : Names sys e p)
    (m : Model) :
    keeps curr p m.name = scheduledOn curr e.1 e.2.resourcePntg e.2.dedupNum m.name := by
  obtain ⟨hdev, hkey⟩ := hp.found hsys
  rw [Bool.eq_iff_iff, keeps_iff, hdev, Int.toNat_natCast, ← hkey]
  simp only [mem_nodesAt hcurr, task_iff, scheduledOn, Node.key, Prod.mk.injEq, List.any_eq_true,
    Bool.and_eq_true, beq_iff_eq]
  constructor
  · rintro ⟨n, ⟨g, hg, hdev, hn⟩, hkey, ht⟩
    exact ⟨g, hg, hdev, n, hn, hkey, ht⟩
  · rintro ⟨g, hg, hdev, n, hn, hkey, ht⟩
    exact ⟨n, ⟨g, hg, hdev, hn⟩, hkey, ht⟩

/-- When all is done every proxy has what stays on it, or what it had. -/
theorem Inv.completed (h : Inv sys prev curr l0 s) (hdone : s.Completed) (p : ProxyInfo) :
    ((∃ e ∈ nodesOf prev, Names sys e p) → s.loadedModels p = (l0 p).filter (keeps curr p)) ∧
      ((∀ e ∈ nodesOf prev, ¬ Names sys e p) → s.loadedModels p = l0 p) := by
  obtain ⟨hthreads, hcaller⟩ := h
  rw [hdone.returned] at hcaller
  constructor
  · rintro ⟨e, he, hp⟩
    by_cases hin : p ∈ started s.threads
    · obtain ⟨t, ht, rfl⟩ := List.mem_map.mp hin
      refine (hthreads.works t ht).past fun it2 hpc => ?_
      rw [hdone.done t ht] at hpc
      cases hpc
    · have hstays : ∀ name ∈ l0 p, keeps curr p name = true := by
        rcases hcaller.handled e he with hnil | hall
        · cases hnil
        · exact ((hall p hp).resolve_left (by simp)).resolve_left hin
      rw [hthreads.untouched p hin, List.filter_eq_self.mpr hstays]
  · intro hnone
    refine hthreads.untouched p fun hin => ?_
    obtain ⟨e, he, hp⟩ := hthreads.named p hin
    exact hnone e he hp

theorem configureProxys_homed (backends : List (Option Backend)) :
    Homed (configureProxys (connectBackendList backends)) :=
  ⟨devID_of_mem (sorted_connectBackendList backends)⟩

/-- **Exactly the stale models are unloaded.** Between two states of the shape
that all decisions have, for all loaded models of the table, in whatever order
the scheduler thread and the threads it starts take their steps: when all of
them are done, the proxies of the state before keep the models that the state
after schedules on them, in their order, and the other proxies keep all. -/
theorem unloadModels_exact {backends : List (Option Backend)} {flags : ProxyInfo → Flags}
    {acts : List Act} (hprev : AllGPUs DistinctNodes prev) (hcurr : AllGPUs DistinctNodes curr)
    (hknown : ∀ p, ∀ name ∈ models p, ∃ m : Model, m.name = name)
    (hrun : Machine.run (step (configureProxys (connectBackendList backends)) curr allowRepart) acts
      (start prev models flags) = some s) (hdone : s.Completed) :
    (∀ e ∈ nodesOf prev, ∀ p, Names (configureProxys (connectBackendList backends)) e p →
      s.loadedModels p =
        (models p).filter (scheduledOn curr e.1 e.2.resourcePntg e.2.dedupNum)) ∧
    ∀ p, (∀ e ∈ nodesOf prev, ¬ Names (configureProxys (connectBackendList backends)) e p) →
      s.loadedModels p = models p := by
  have hsys := configureProxys_homed backends
  have hinv := Machine.run_invariant (fun a s s' hs hstep => Inv.step hsys hcurr hs hstep) hrun
    (.start hprev flags)
  refine ⟨fun e he p hp => ?_, fun p hnone => (hinv.completed hdone p).2 hnone⟩
  rw [(hinv.completed hdone p).1 ⟨e, he, hp⟩]
  refine List.filter_congr fun name hname => ?_
  obtain ⟨m, rfl⟩ := hknown p name hname
  exact keeps_eq hsys hcurr hp m

/-- Wherever `unloadModels` and its threads have got to, they can complete, and
they have taken no more steps than there are, if the nodes of the state before
have proxies that are up. -/
theorem unloadModels_completes {backends : List (Option Backend)} {flags : ProxyInfo → Flags}
    {acts : List Act} (hprev : AllGPUs DistinctNodes prev) (hcurr : AllGPUs DistinctNodes curr)
    (hup : Up (configureProxys (connectBackendList backends)) prev flags [])
    (hrun : Machine.run (step (configureProxys (connectBackendList backends)) curr allowRepart) acts
      (start prev models flags) = some s) :
    acts.length ≤ (start prev models flags).left (configureProxys (connectBackendList backends)) curr
      models ∧
    ∃ acts' s', Machine.run (step (configureProxys (connectBackendList backends)) curr allowRepart)
      acts' s = some s' ∧ s'.Completed := by
  have hsys := configureProxys_homed backends
  have hstart : Inv (configureProxys (connectBackendList backends)) prev curr models
      (start prev models flags) := .start hprev flags
  obtain ⟨hinv, hups⟩ := Machine.run_invariant
    (I := fun s => Inv (configureProxys (connectBackendList backends)) prev curr models s ∧
      Up (configureProxys (connectBackendList backends)) prev s.flags s.threads)
    (fun a s s' hs hstep => ⟨hs.1.step hsys hcurr hstep, up_step hs.1 hs.2 hstep⟩) hrun
    ⟨hstart, hup⟩
  exact ⟨le_trans (Nat.le_add_right _ _) (length_le_left hsys hcurr hstart hrun),
    exists_completed hsys hcurr hinv hups⟩

/-! ## A GPU in halves -/

def halfNode (dedupNum : Int) (ids : List Int) : Node :=
  { Scheduler.makeEmptyNode 0 50 "gpu" with
    dedupNum := dedupNum
    vTaskList := ids.map fun id => Scheduler.request id 10 100 }

/-- One GPU in halves, with tasks of these ids. -/
def halves (ids ids' : List Int) : SimState :=
  ⟨[⟨0, 11000, 0, "gpu", [], [halfNode 0 ids, halfNode 1 ids']⟩], []⟩

def halfBackend : Backend :=
  ⟨"0-0", [50], (startBackend "0-0" [50]).get (by decide +kernel), (Option.some_get _).symm⟩

theorem halves_distinctNodes (ids ids' : List Int) :
    AllGPUs DistinctNodes (halves ids ids') := by
  rintro (_ | i) g hg
  · obtain rfl := Option.some.inj hg
    refine ⟨rfl, fun n hn => ?_, by simp [Node.key, halfNode]⟩
    rcases List.mem_pair.mp hn with rfl | rfl <;> rfl
  · cases hg

/-- One half loses one of its models, the other one its only one. -/
theorem unloadModels_exact_halves :
    ∃ s, Machine.run (step (configureProxys (connectBackendList [some halfBackend])) (halves [0] [])
        true)
      [.caller, .caller, .thread 0, .caller, .caller, .caller, .caller, .thread 0, .caller, .thread 1,
        .thread 0, .caller, .thread 1, .thread 0, .thread 1, .thread 1, .thread 0, .thread 1]
      (start (halves [0, 9] [9])
        (fun p => if p.dedupNum = 0 then ["lenet1", "vgg16"] else ["vgg16"])
        fun _ => ⟨false, true, true, true, true⟩) = some s ∧
      s.Completed ∧ s.loadedModels ⟨0, 0, 50, 0, 0⟩ = ["lenet1"] ∧
      s.loadedModels ⟨0, 0, 50, 1, 1⟩ = [] := by
  have hany : (Machine.run
      (step (configureProxys (connectBackendList [some halfBackend])) (halves [0] []) true)
      [.caller, .caller, .thread 0, .caller, .caller, .caller, .caller, .thread 0, .caller, .thread 1,
        .thread 0, .caller, .thread 1, .thread 0, .thread 1, .thread 1, .thread 0, .thread 1]
      (start (halves [0, 9] [9])
        (fun p => if p.dedupNum = 0 then ["lenet1", "vgg16"] else ["vgg16"])
        fun _ => ⟨false, true, true, true, true⟩)).any (fun s => decide s.Completed) = true := by
    decide +kernel
  obtain ⟨s, hrun, hs⟩ := (Option.any_eq_true _ _).mp hany
  have hdone := of_decide_eq_true hs
  have hknown : ∀ p : ProxyInfo,
      ∀ name ∈ (if p.dedupNum = 0 then ["lenet1", "vgg16"] else ["vgg16"]),
        ∃ m : Model, m.name = name := by
    intro p name hname
    split at hname
    · rcases List.mem_pair.mp hname with rfl | rfl
      · exact ⟨.lenet1, rfl⟩
      · exact ⟨.vgg16, rfl⟩
    · rw [List.mem_singleton.mp hname]
      exact ⟨.vgg16, rfl⟩
  obtain ⟨hnamed, -⟩ := unloadModels_exact (halves_distinctNodes _ _) (halves_distinctNodes _ _)
    hknown hrun hdone
  refine ⟨s, hrun, hdone, ?_, ?_⟩
  · refine (hnamed (0, halfNode 0 [0, 9]) (List.mem_cons_self ..) _ (by decide +kernel)).trans ?_
    decide +kernel
  · refine (hnamed (0, halfNode 1 [9]) (List.mem_cons_of_mem _ (List.mem_cons_self ..)) _
      (by decide +kernel)).trans ?_
    decide +kernel

end Glet.Devices.Unload
