import Glet.Runs

/-!
# Fresh and reachable decisions

A *fresh* decision is what `initiateDevs` and `initDevMems` set up. A
decision is *reachable* from given ones if calls of `runScheduling`, whether
they succeed or not, and of `copyToOutput` lead to it; between the calls the
number of GPUs to use may change. `Reachable.invariant` is the induction
that carries a property of single writes over whole sequences of runs.
-/

namespace Glet

open Recorder

/-! ## New devices -/

/-- A device as `initiateDevs` leaves it, its memory fields aside: one empty
node that spans the GPU. -/
structure NewGPU (i : Nat) (g : GPU) : Prop where
  GPUID_eq : g.GPUID = i
  loaded_eq : g.vLoadedParts = []
  nodes_eq : g.vNodeList = [Scheduler.makeEmptyNode i 100 g.TYPE]

/-- A decision set up by `initiateDevs` and `initDevMems`. -/
def Fresh (s : Scheduler) (sim : SimState) : Prop :=
  ∃ input nDevs, s.initDevMems (s.initiateDevs input nDevs) = .ok sim

namespace Scheduler

variable {s : Scheduler}

theorem initiateDevsFrom_new {nDevs : Int} {types : List DeviceType} {idx i : Nat} {g : GPU}
    (h : (s.initiateDevsFrom nDevs types idx)[i]? = some g) : NewGPU (idx + i) g := by
  induction types generalizing idx i with
  | nil => simp [initiateDevsFrom] at h
  | cons type types ih =>
      cases i with
      | zero =>
          obtain rfl : _ = g := by simpa [initiateDevsFrom] using h
          exact ⟨rfl, rfl, rfl⟩
      | succ i =>
          simp only [initiateDevsFrom, List.getElem?_cons_succ] at h
          split at h
          · simp at h
          · have := ih h
            rwa [show idx + 1 + i = idx + (i + 1) by omega] at this

/-- `initDevMems` reaches every device `initiateDevs` made: it walks the same
table of types. -/
theorem initDevMemsFrom_new {nDevs : Int} {types : List DeviceType} {idx i : Nat} {g : GPU}
    (h : (s.initDevMemsFrom types (s.initiateDevsFrom nDevs types idx))[i]? = some g) :
    NewGPU (idx + i) g ∧ g.usedMemory = 0 ∧ 0 ≤ g.totalMemory := by
  induction types generalizing idx i with
  | nil => simp [initiateDevsFrom, initDevMemsFrom] at h
  | cons type types ih =>
      cases i with
      | zero =>
          obtain rfl : _ = g := by simpa [initiateDevsFrom, initDevMemsFrom, initDevMem] using h
          exact ⟨⟨rfl, rfl, rfl⟩, rfl, by simp⟩
      | succ i =>
          simp only [initiateDevsFrom, initDevMemsFrom, List.getElem?_cons_succ] at h
          split at h
          · cases types <;> simp [initDevMemsFrom] at h
          · have := ih h
            rwa [show idx + 1 + i = idx + (i + 1) by omega] at this

theorem initiateDevsFrom_type {nDevs : Int} {types : List DeviceType} {idx i : Nat} {g : GPU}
    (h : (s.initiateDevsFrom nDevs types idx)[i]? = some g) : g.TYPE ∈ types := by
  induction types generalizing idx i with
  | nil => simp [initiateDevsFrom] at h
  | cons type types ih =>
      cases i with
      | zero =>
          obtain rfl : _ = g := by simpa [initiateDevsFrom] using h
          exact List.mem_cons_self ..
      | succ i =>
          simp only [initiateDevsFrom, List.getElem?_cons_succ] at h
          split at h
          · simp at h
          · exact List.mem_cons_of_mem _ (ih h)

theorem initiateDevs_new {input : SimState} {nDevs : Int} {i : Nat} {g : GPU}
    (h : (s.initiateDevs input nDevs).vGPUList[i]? = some g) : NewGPU i g := by
  simpa using initiateDevsFrom_new h

theorem initiateDevs_type {input : SimState} {nDevs : Int} {i : Nat} {g : GPU}
    (h : (s.initiateDevs input nDevs).vGPUList[i]? = some g) : g.TYPE ∈ s.deviceTypes :=
  initiateDevsFrom_type h

end Scheduler

theorem Fresh.gpu {s : Scheduler} {sim : SimState} (h : Fresh s sim) {i : Nat} {g : GPU}
    (hg : sim.vGPUList[i]? = some g) : NewGPU i g ∧ g.usedMemory = 0 ∧ 0 ≤ g.totalMemory := by
  obtain ⟨input, nDevs, h⟩ := h
  simp only [Scheduler.initDevMems, Query.bind_ok, Query.pure_ok] at h
  obtain ⟨-, -, rfl⟩ := h
  simpa using Scheduler.initDevMemsFrom_new hg

theorem NewGPU.node? {sim : SimState} (h : ∀ i g, sim.vGPUList[i]? = some g → NewGPU i g)
    {a : Addr} {n : Node} (hn : sim.node? a = some n) :
    ∃ g, sim.vGPUList[a.gpu]? = some g ∧ n = Scheduler.makeEmptyNode a.gpu 100 g.TYPE := by
  obtain ⟨g, hg, hn⟩ := SimState.gpu_of_node? hn
  have hmem := List.mem_of_getElem? hn
  rw [(h _ _ hg).nodes_eq] at hmem
  exact ⟨g, hg, List.mem_singleton.mp hmem⟩

/-- Every node of a fresh decision is empty and spans its GPU. -/
theorem Fresh.node? {s : Scheduler} {sim : SimState} (h : Fresh s sim) {a : Addr} {n : Node}
    (hn : sim.node? a = some n) :
    ∃ g, sim.vGPUList[a.gpu]? = some g ∧ n = Scheduler.makeEmptyNode a.gpu 100 g.TYPE :=
  NewGPU.node? (fun _ _ hg => (h.gpu hg).1) hn

/-- A sum to which empty nodes contribute nothing is 0 on new devices. -/
theorem SimState.total_new {M : Type} [AddCommGroup M] {F : Node → M} {sim : SimState}
    (hempty : ∀ n, n.vTaskList = [] → F n = 0)
    (h : ∀ i g, sim.vGPUList[i]? = some g → NewGPU i g) : sim.total F = 0 := by
  rw [total_eq_nodes, List.sum_eq_zero]
  intro x hx
  obtain ⟨n, hn, rfl⟩ := List.mem_map.mp hx
  obtain ⟨a, ha⟩ := mem_nodes.mp hn
  obtain ⟨g, -, rfl⟩ := NewGPU.node? h ha
  exact hempty _ rfl

theorem Fresh.total {M : Type} [AddCommGroup M] {s : Scheduler} {sim : SimState}
    (h : Fresh s sim) {F : Node → M} (hempty : ∀ n, n.vTaskList = [] → F n = 0) :
    sim.total F = 0 :=
  SimState.total_new hempty fun _ _ hg => (h.gpu hg).1

/-! ## Sequences of runs -/

/-- The decisions that calls of `runScheduling` and `copyToOutput` reach from
those in `Start`. -/
inductive Reachable (s : Scheduler) (Start : SimState → Prop) : SimState → Prop
  | start {sim : SimState} : Start sim → Reachable s Start sim
  | prev {n : Int} {table : SatTable} {tasks : List Task} {sim out : SimState} {repart : Bool}
      {o : Outcome} : Reachable s Start sim → Built s table →
      (s.setMaxGPUs n).runScheduling table tasks sim out repart = .ok o → Reachable s Start o.prev
  | out {n : Int} {table : SatTable} {tasks : List Task} {sim out : SimState} {repart : Bool}
      {o : Outcome} : Reachable s Start sim → Built s table →
      (s.setMaxGPUs n).runScheduling table tasks sim out repart = .ok o → o.ret = .success →
      Reachable s Start o.out
  | copied {sim : SimState} : Reachable s Start sim → Reachable s Start (copyToOutput s sim).1
  | copy {sim : SimState} : Reachable s Start sim → Reachable s Start (copyToOutput s sim).2

/-- **Invariants of reachable decisions.** What holds at the start, is kept by
every guarded write and survives a copy, holds of every reachable decision. -/
theorem Reachable.invariant {s : Scheduler} {Start I : SimState → Prop} {sim : SimState}
    (h : Reachable s Start sim) (start : ∀ sim, Start sim → I sim)
    (step : ∀ n repart ids c act, I c.sim →
      Guard ((s.setMaxGPUs n).withRepart repart) ids c act → I (act.apply repart c).sim)
    (copy : ∀ sim, I sim → I (copyToOutput s sim).2) : I sim := by
  have run : ∀ {n table tasks sim out repart o}, I sim → Built s table →
      (s.setMaxGPUs n).runScheduling table tasks sim out repart = .ok o → I o.prev := by
    intro n table tasks sim out repart o hI htab hrun
    obtain ⟨-, r', hruns, -, hprev, -⟩ := Scheduler.runScheduling_ok (built_setMaxGPUs.mpr htab) hrun
    rw [hprev]
    refine (hruns.strengthen (I := fun c => I c.sim) ?_ hI).2
    intro c act hc hg
    exact step n repart _ c act hc hg.1
  induction h with
  | start hs => exact start _ hs
  | prev _ htab hrun ih => exact run ih htab hrun
  | @out n table tasks sim out repart o _ htab hrun hret ih =>
      have hprev := run ih htab hrun
      obtain ⟨-, r', -, -, heq, hout, -⟩ := Scheduler.runScheduling_ok (built_setMaxGPUs.mpr htab) hrun
      rw [hout hret, ← heq]
      exact copy _ hprev
  | @copied sim _ ih =>
      exact step s.numMaxGPU true [] (Core.init sim) .markLoaded ih (.top trivial rfl)
  | copy _ ih => exact copy _ ih

/-! ## Copies -/

namespace SimState

variable {s : Scheduler} {sim : SimState} {a : Addr} {n : Node}

/-- A node as `copyToOutput` copies it, when the tasks it makes have this
`additional_rate`. -/
def copyNode (rate : Int) (n : Node) : Node :=
  { n with vTaskList := n.vTaskList.map fun t => { t with additionalRate := rate } }

theorem node?_copy :
    (copyToOutput s sim).2.node? a = (sim.node? a).map (copyNode s.uninit.additionalRate) := by
  simp only [node?, copyToOutput, List.getElem?_map]
  cases sim.vGPUList[a.gpu]? with
  | none => rfl
  | some g =>
      simp only [copyGPU, Option.map_some, Option.bind_some, List.getElem?_map]
      rfl

theorem nodes_copy :
    (copyToOutput s sim).2.nodes = sim.nodes.map (copyNode s.uninit.additionalRate) := by
  simp only [nodes, copyToOutput, List.flatMap_map, List.map_flatMap]
  rfl

end SimState

/-! ## Schedulers to run -/

/-- Did a computation return a value with this property? -/
def Query.returns {α : Type} (q : Query α) (p : α → Bool) : Bool :=
  match q with
  | .ok a => p a
  | .error _ => false

theorem Query.of_returns {α : Type} {q : Query α} {p : α → Bool} (h : q.returns p = true) :
    ∃ a, q = .ok a ∧ p a = true := by
  cases q with
  | ok a => exact ⟨a, rfl, h⟩
  | error e => cases h

def Query.stopsWith {α : Type} (q : Query α) (f : Fault) : Bool :=
  match q with
  | .ok _ => false
  | .error e => decide (e = f)

theorem Query.of_stopsWith {α : Type} {q : Query α} {f : Fault} (h : q.stopsWith f = true) :
    q = .error f := by
  cases q with
  | ok a => cases h
  | error e => rw [of_decide_eq_true h]

namespace Scheduler

/-- A scheduler for `n` GPUs of one type with a given latency profile:
CHECK_MEM and CHECK_NETBW builds, no interference, no self tuning. -/
def plain (latency : Model → Int → Int → Option ℚ) (parts : List Int) (n : Int) : Scheduler where
  numMaxGPU := n
  numMaxModel := 3
  usePart := decide (1 < parts.length)
  latencyRatio := 1
  latencyRatio_ge := le_rfl
  useBatchingOverhead := false
  useInterference := false
  useSelfTuning := false
  useRepartition := true
  availParts := parts
  mapModelIDtoMemSize := fun _ => 50
  nametoDevPerfModelTable := fun _ =>
    { getLatency := latency, getInterference := fun _ _ _ _ _ _ => 1, getDevMem := 11000 }
  typeToNumofTypeTable := [("gpu", n)]
  batchLatency_3_224_224 := fun _ => 1
  batchLatency_3_300_300 := fun _ => 1
  priorityCheck := false
  priorityType := ""
  checkMem := true
  checkNetBW := true
  isNLCInitated := true
  taskIDtoRequiredBytesPerRequest := fun _ => 3136
  stdSort := StdSort.insertion
  uninit := { duty := fun _ => 0, estimateBatch := 1, shareDuty := 0, shareLatency := 0, memory := 0
              additionalRate := 0 }
  fuel := 20

/-- A profile with an answer for every batch size up to `_MAX_BATCH` on the
given partition sizes. -/
def profile (parts : List Int) (latency : Int → Int → ℚ) : Model → Int → Int → Option ℚ :=
  fun _ batch part =>
    if 1 ≤ batch ∧ batch ≤ maxBatch ∧ part ∈ parts then some (latency batch part) else none

theorem profile_ok {parts : List Int} {latency : Int → Int → ℚ} (name : Model) {batch part : Int}
    {v : ℚ} (h : profile parts latency name batch part = some v) :
    1 ≤ batch ∧ batch ≤ maxBatch ∧ part ∈ parts ∧ v = latency batch part := by
  unfold profile at h
  split at h
  case isTrue hin => exact ⟨hin.1, hin.2.1, hin.2.2, (Option.some.inj h).symm⟩
  case isFalse => cases h

theorem plain_positive {parts : List Int} {k : Int} {L : ℚ} (hL : 0 < L) :
    PositiveLatency (plain (profile parts fun _ _ => L) parts k) where
  latency := by
    intro type name batch part v h
    have hprofile : profile parts (fun _ _ => L) name batch part = some v := h
    obtain ⟨-, -, -, rfl⟩ := profile_ok name hprofile
    exact hL
  overhead_224 := fun _ => zero_le_one
  overhead_300 := fun _ => zero_le_one

/-- A request for a model, as a session holds it. -/
def request (id rate SLO : Int) : Task := createNewTask id rate SLO 0 0

/-- The decision a scheduler starts with. -/
def setUp (s : Scheduler) : SimState :=
  ⟨s.initDevMemsFrom s.deviceTypes (s.initiateDevsFrom s.numMaxGPU s.deviceTypes 0), []⟩

/-- A first run on the devices a scheduler sets up. -/
def firstRun (s : Scheduler) (tasks : List Task) (allowRepart : Bool) : Query Outcome :=
  s.runScheduling (fun _ => none) tasks s.setUp ⟨[], []⟩ allowRepart

theorem setUp_fresh {s : Scheduler}
    (h : (s.initiateDevsFrom s.numMaxGPU s.deviceTypes 0).isEmpty = false) : Fresh s s.setUp := by
  refine ⟨⟨[], []⟩, s.numMaxGPU, ?_⟩
  have hne : (s.initiateDevs ⟨[], []⟩ s.numMaxGPU).vGPUList ≠ [] := by
    simpa [initiateDevs, List.isEmpty_iff] using h
  simp only [initDevMems, assert, if_pos hne]
  rfl

end Scheduler

end Glet
