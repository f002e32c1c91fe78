import Glet.Fit
import Glet.Reach

/-!
# What a copy of a decision leaves on which side

`copyToOutput` is to be a deep copy. The loaded parts it collects on the way are
pushed on `gpu_ptr`, the GPU that is read, and not on `new_gpu_ptr`, the one that
is made. Here the routine is followed push by push and shown to be the one of
the scheduler's model (`copyInto_eq`). It copies without a trace if and only if
no node of the input hosts a task (`copyInto_faithful_iff`); otherwise every
copy lengthens the list of the input (`copyTimes_loadedParts`), and no part of
the output counts as loaded (`isPartLoaded_copy`).
-/

namespace Glet

variable {s : Scheduler} {gpu : GPU} {input output : SimState}

/-! ## The routine, push by push -/

/-- The copy of a task; `additional_rate` is not written. -/
def copyTask (s : Scheduler) (t : Task) : Task :=
  { id := t.id, batchSize := t.batchSize, requestRate := t.requestRate, SLO := t.SLO,
    throughput := t.throughput, additionalRate := s.uninit.additionalRate }

/-- The copy of a node, with the tasks pushed so far. -/
def copyOfNode (n : Node) (tasks : List Task) : Node :=
  { id := n.id, resourcePntg := n.resourcePntg, dedupNum := n.dedupNum, dutyCycle := n.dutyCycle,
    reserved := n.reserved, occupancy := n.occupancy, type := n.type, vTaskList := tasks }

/-- One turn of the loop over the nodes: the GPU that is read and the one that is
made. -/
def copyNodeTurn (s : Scheduler) (gpus : GPU × GPU) (n : Node) : GPU × GPU :=
  let (gpu, newGPU) := gpus
  let gpu :=
    if n.vTaskList.isEmpty then gpu
    else { gpu with vLoadedParts := gpu.vLoadedParts ++ [⟨n.resourcePntg, n.dedupNum⟩] }
  let tasks := n.vTaskList.foldl (fun tasks t => tasks ++ [copyTask s t]) []
  (gpu, { newGPU with vNodeList := newGPU.vNodeList ++ [copyOfNode n tasks] })

/-- A GPU as `GPU new_gpu` and the two assignments make it. -/
def newGPUOf (s : Scheduler) (gpu : GPU) : GPU :=
  { GPUID := gpu.GPUID, TYPE := gpu.TYPE, totalMemory := s.uninit.memory,
    usedMemory := s.uninit.memory, vLoadedParts := [], vNodeList := [] }

/-- One turn of the loop over the GPUs: those read so far and those made. -/
def copyGPUTurn (s : Scheduler) (lists : List GPU × List GPU) (gpu : GPU) :
    List GPU × List GPU :=
  let (gpu, newGPU) := gpu.vNodeList.foldl (copyNodeTurn s) (gpu, newGPUOf s gpu)
  (lists.1 ++ [gpu], lists.2 ++ [newGPU])

/-- `copyToOutput`: the input afterwards and the output, whatever it held. -/
def copyInto (s : Scheduler) (input output : SimState) : SimState × SimState :=
  let output := { output with vGPUList := [] }
  let (read, made) := input.vGPUList.foldl (copyGPUTurn s) ([], output.vGPUList)
  let output := { output with vGPUList := made }
  let output := { output with parts := [] }
  ({ input with vGPUList := read },
    { output with parts := input.parts.foldl (fun parts part => parts ++ [part]) output.parts })

theorem foldl_push {α β : Type} (f : α → β) (xs : List α) (ys : List β) :
    xs.foldl (fun ys x => ys ++ [f x]) ys = ys ++ xs.map f := by
  induction xs generalizing ys with
  | nil => simp
  | cons x xs ih => rw [List.foldl_cons, ih, List.map_cons, List.append_assoc]; rfl

/-- The parts of the nodes with tasks. -/
def partsInUse (nodes : List Node) : List MemNode :=
  (nodes.filter fun n => !n.vTaskList.isEmpty).map fun n => ⟨n.resourcePntg, n.dedupNum⟩

theorem copyNodeTurns (nodes : List Node) (gpu newGPU : GPU) :
    nodes.foldl (copyNodeTurn s) (gpu, newGPU) =
      ({ gpu with vLoadedParts := gpu.vLoadedParts ++ partsInUse nodes },
        { newGPU with vNodeList := newGPU.vNodeList ++ nodes.map (SimState.copyNode s.uninit.additionalRate) }) := by
  induction nodes generalizing gpu newGPU with
  | nil => simp [partsInUse]
  | cons n nodes ih =>
      have htasks : n.vTaskList.foldl (fun tasks t => tasks ++ [copyTask s t]) [] =
          n.vTaskList.map (copyTask s) := by
        rw [foldl_push, List.nil_append]
      have hnode : copyOfNode n (n.vTaskList.map (copyTask s)) =
          SimState.copyNode s.uninit.additionalRate n := rfl
      rw [List.foldl_cons, copyNodeTurn, ih]
      dsimp only
      rw [htasks, hnode, List.map_cons, List.append_assoc]
      cases hempty : n.vTaskList.isEmpty with
      | true => simp [partsInUse, hempty]
      | false => simp [partsInUse, hempty]

/-- One GPU is marked and copied. -/
theorem copyGPUTurn_eq (lists : List GPU × List GPU) (gpu : GPU) :
    copyGPUTurn s lists gpu = (lists.1 ++ [markLoadedParts gpu], lists.2 ++ [copyGPU s gpu]) := by
  rw [copyGPUTurn, copyNodeTurns]
  rfl

/-- Push by push it is the routine of the scheduler's model. -/
theorem copyInto_eq : copyInto s input output = copyToOutput s input := by
  have hloop : ∀ (gpus : List GPU) (lists : List GPU × List GPU),
      gpus.foldl (copyGPUTurn s) lists =
        (lists.1 ++ gpus.map markLoadedParts, lists.2 ++ gpus.map (copyGPU s)) := by
    intro gpus
    induction gpus with
    | nil => intro lists; simp
    | cons gpu gpus ih =>
        intro lists
        rw [List.foldl_cons, copyGPUTurn_eq, ih]
        simp
  have hparts : ∀ parts : List Int, parts.foldl (fun parts part => parts ++ [part]) [] = parts := by
    intro parts
    have h := foldl_push id parts []
    simpa using h
  unfold copyInto copyToOutput
  dsimp only
  rw [hloop]
  dsimp only
  rw [hparts]
  rfl

/-! ## A copy without a trace -/

/-- The fields of a task that a copy is to keep. -/
def Task.copied (t : Task) : Int × Int × Int × Int × ℚ :=
  (t.id, t.batchSize, t.requestRate, t.SLO, t.throughput)

/-- The fields of a node, and the entries of its tasks in order. -/
def Node.copied (n : Node) :
    (Nat × Int × Int × Option ℚ × Bool × ℚ × DeviceType) × List (Int × Int × Int × Int × ℚ) :=
  ((n.id, n.resourcePntg, n.dedupNum, n.dutyCycle, n.reserved, n.occupancy, n.type),
    n.vTaskList.map Task.copied)

/-- A deep copy: the input is unchanged, the output has its GPUs, nodes, entries
and parts, and lists as loaded the parts of its nodes with tasks. -/
structure Faithful (input left output : SimState) : Prop where
  unchanged : left = input
  gpus : output.vGPUList.map (fun g => (g.GPUID, g.TYPE)) =
    input.vGPUList.map fun g => (g.GPUID, g.TYPE)
  nodes : output.vGPUList.map (fun g => g.vNodeList.map Node.copied) =
    input.vGPUList.map fun g => g.vNodeList.map Node.copied
  parts : output.parts = input.parts
  loaded : ∀ g ∈ output.vGPUList, ∀ m : MemNode, m ∈ g.vLoadedParts ↔
    ∃ n ∈ g.vNodeList, n.vTaskList ≠ [] ∧ m = ⟨n.resourcePntg, n.dedupNum⟩

theorem copied_copyNode (rate : Int) (n : Node) :
    (SimState.copyNode rate n).copied = n.copied := by
  simp only [Node.copied, SimState.copyNode, List.map_map]
  rfl

theorem partsInUse_eq_nil {nodes : List Node} :
    partsInUse nodes = [] ↔ ∀ n ∈ nodes, n.vTaskList = [] := by
  simp [partsInUse]

theorem markLoadedParts_eq_self :
    markLoadedParts gpu = gpu ↔ ∀ n ∈ gpu.vNodeList, n.vTaskList = [] := by
  rw [← partsInUse_eq_nil]
  constructor
  · intro h
    have hparts : gpu.vLoadedParts ++ partsInUse gpu.vNodeList = gpu.vLoadedParts :=
      congrArg GPU.vLoadedParts h
    exact List.append_right_eq_self.mp hparts
  · intro h
    have hmark : markLoadedParts gpu =
      { gpu with vLoadedParts := gpu.vLoadedParts ++ partsInUse gpu.vNodeList } := rfl
    rw [hmark, h, List.append_nil]

/-- **Copies.** `copyToOutput` is a deep copy that leaves its input alone if and
only if no node of the input hosts a task. -/
theorem copyInto_faithful_iff (s : Scheduler) (input output : SimState) :
    Faithful input (copyInto s input output).1 (copyInto s input output).2 ↔
      ∀ g ∈ input.vGPUList, ∀ n ∈ g.vNodeList, n.vTaskList = [] := by
  rw [copyInto_eq]
  constructor
  · intro h g hg
    have hlists : input.vGPUList.map markLoadedParts = input.vGPUList.map id := by
      rw [List.map_id]
      exact congrArg SimState.vGPUList h.unchanged
    exact markLoadedParts_eq_self.mp (List.map_inj_left.mp hlists g hg)
  · intro h
    refine ⟨?_, ?_, ?_, rfl, ?_⟩
    · have hmark : input.vGPUList.map markLoadedParts = input.vGPUList := by
        refine (List.map_congr_left fun g hg => ?_).trans (List.map_id _)
        exact markLoadedParts_eq_self.mpr (h g hg)
      simp only [copyToOutput, hmark]
    · simp only [copyToOutput, List.map_map]
      rfl
    · simp only [copyToOutput, List.map_map]
      refine List.map_congr_left fun g hg => ?_
      have hcopy : (copyGPU s g).vNodeList =
          g.vNodeList.map (SimState.copyNode s.uninit.additionalRate) := rfl
      simp only [Function.comp_apply, hcopy, List.map_map]
      exact List.map_congr_left fun n _ => copied_copyNode _ n
    · intro g' hg' m
      obtain ⟨g, hg, rfl⟩ := List.mem_map.mp hg'
      refine ⟨fun hm => absurd hm List.not_mem_nil, ?_⟩
      rintro ⟨n', hn', hbusy, -⟩
      obtain ⟨n, hn, rfl⟩ := List.mem_map.mp hn'
      have hidle : (SimState.copyNode s.uninit.additionalRate n).vTaskList = [] := by
        rw [SimState.copyNode, h g hg n hn, List.map_nil]
      exact absurd hidle hbusy

/-- One GPU whose only gpu-let serves a model. -/
def servingOne : SimState :=
  { vGPUList := [⟨0, 11000, 600, "gpu", [],
      [⟨[⟨0, 10, 0, 30, 1, 100⟩], some 10, 1, 100, 0, false, 0, "gpu"⟩]⟩],
    parts := [100] }

/-- Its copy marks the input. -/
theorem copyInto_not_faithful :
    ¬ ∀ (s : Scheduler) (input output : SimState),
      Faithful input (copyInto s input output).1 (copyInto s input output).2 := by
  intro h
  have hcopy := h (.plain (Scheduler.profile [100] fun _ _ => 5) [100] 1) servingOne ⟨[], []⟩
  exact absurd hcopy.unchanged (by decide +kernel)

/-! ## What the misplaced push does -/

/-- The input after `k` copies. -/
def copyTimes (s : Scheduler) (input : SimState) : Nat → SimState
  | 0 => input
  | k + 1 => (copyInto s (copyTimes s input k) ⟨[], []⟩).1

/-- Every copy pushes the parts in use once more. -/
theorem copyTimes_loadedParts (k : Nat) :
    copyTimes s input k = { input with
      vGPUList := input.vGPUList.map fun g => { g with
        vLoadedParts := g.vLoadedParts ++ (List.replicate k (partsInUse g.vNodeList)).flatten } } := by
  induction k with
  | zero => simp [copyTimes]
  | succ k ih =>
      rw [copyTimes, copyInto_eq, ih]
      simp only [copyToOutput, List.map_map]
      refine congrArg (fun gpus => { input with vGPUList := gpus })
        (List.map_congr_left fun g _ => ?_)
      have hmark : ∀ g : GPU, markLoadedParts g =
        { g with vLoadedParts := g.vLoadedParts ++ partsInUse g.vNodeList } := fun _ => rfl
      simp only [Function.comp_apply, hmark, List.append_assoc, ← List.flatten_concat,
        List.replicate_succ']

/-- To a memory check on the copy nothing is loaded, and nothing can be
subtracted. -/
theorem isPartLoaded_copy {g : GPU} (hg : g ∈ (copyInto s input output).2.vGPUList) (n : Node) :
    isPartLoaded g n = false := by
  rw [copyInto_eq] at hg
  obtain ⟨g₀, -, rfl⟩ := List.mem_map.mp hg
  rfl

end Glet
