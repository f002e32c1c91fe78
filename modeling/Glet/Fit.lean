import Glet.Estimate

/-!
# Fitting gpu-lets on GPUs

The checks a placement has to pass (memory, network bandwidth,
interference with the neighbour) and the best-fit search over the empty
nodes of a decision.
-/

namespace Glet

/-! ## Memory -/

def isPartLoaded (gpu : GPU) (node : Node) : Bool :=
  gpu.vLoadedParts.any fun m => m.part == node.resourcePntg && m.dedupNum == node.dedupNum

/-- Is the model among the tasks of a node with the same part and dedup
number, and was that part loaded? -/
def isModelLoaded (gpu : GPU) (node : Node) (modelId : Int) : Bool :=
  isPartLoaded gpu node && gpu.vNodeList.any fun n =>
    n.resourcePntg == node.resourcePntg && n.dedupNum == node.dedupNum &&
      n.vTaskList.any fun t => t.id == modelId

namespace Scheduler

variable (s : Scheduler)

/-- Memory a model needs on a node: its own, and the framework's if nothing
was loaded on the part yet. -/
def requiredMemory (gpu : GPU) (modelId : Int) (node : Node) : Int :=
  s.mapModelIDtoMemSize modelId + if isPartLoaded gpu node then 0 else defaultPytorchMemUsage

def doesFitMemLimit (gpu : GPU) (modelId : Int) (node : Node) : Query Bool := do
  assert (s.mapModelIDtoMemSize modelId ≠ 0)
  assert (gpu.totalMemory ≠ 0)
  return isModelLoaded gpu node modelId ||
    decide ((s.requiredMemory gpu modelId node : ℚ) < gpu.totalMemory * memRoom - gpu.usedMemory)

/-- `addGPUMemUsage`: the memory in use and the part loaded afterwards, or
`none` when it leaves the GPU as it is. -/
def addedGPUMemUsage (gpu : GPU) (modelId : Int) (node : Node) : Query (Option (Int × MemNode)) := do
  if isModelLoaded gpu node modelId then return none
  else
    let fits ← s.doesFitMemLimit gpu modelId node
    if fits then
      return some (gpu.usedMemory + s.requiredMemory gpu modelId node,
        ⟨node.resourcePntg, node.dedupNum⟩)
    else return none

/-- `subtractGPUMemUsage`: the memory in use afterwards. -/
def subtractedGPUMemUsage (gpu : GPU) (modelId : Int) (node : Node) : Query Int := do
  assert (isPartLoaded gpu node)
  return if !isModelLoaded gpu node modelId then gpu.usedMemory
    else if gpu.usedMemory - s.mapModelIDtoMemSize modelId < 0 then gpu.usedMemory
    else gpu.usedMemory - s.mapModelIDtoMemSize modelId

/-! ## Network bandwidth -/

/-- Bytes per second a list of tasks needs. -/
def requiredBytes (tasks : List Task) : ℚ :=
  (tasks.map fun t => t.throughput * (s.taskIDtoRequiredBytesPerRequest t.id : ℚ)).sum

/-- `getRequiredBandwidth`, in gbits. -/
def getRequiredBandwidth (gpu : GPU) : ℚ :=
  s.requiredBytes (gpu.vNodeList.flatMap (·.vTaskList)) * 8 / 1024 / 1024 / 1024

def isBandwidthOK (gpu : GPU) : Bool := decide (s.getRequiredBandwidth gpu ≤ limitGbits)

/-- `isBandwidthOK(SimState)`. -/
def isBandwidthOKAll (sim : SimState) : Bool := sim.vGPUList.all s.isBandwidthOK

/-- The loop of `adjustBatchSizetoNetBW`, from batch `i` down. -/
def netBatchLoop (task : Task) (remainBW : ℚ) : Nat → Query (Option Task)
  | 0 => .ok none
  | i + 1 => do
      let ratio ← fdiv (i + 1 : Nat) task.batchSize
      let required := ratio * task.throughput * s.taskIDtoRequiredBytesPerRequest task.id
      if required * 8 / 1024 / 1024 / 1024 ≤ remainBW then
        return some { task with batchSize := (i + 1 : Nat), throughput := ratio * task.throughput }
      else netBatchLoop task remainBW i

/-- `adjustBatchSizetoNetBW`: the adjusted task, or `none` on EXIT_FAILURE. -/
def adjustBatchSizetoNetBW (task : Task) (gpu : GPU) : Query (Option Task) := do
  let remainBW := max (limitGbits - s.getRequiredBandwidth gpu) 0
  if remainBW = 0 then return none
  else
    assert (task.batchSize ≠ 0 ∧ task.throughput ≠ 0)
    s.netBatchLoop task remainBW task.batchSize.toNat

/-! ## The best-fit search -/

/-- The loop of `checkForInterference` over the neighbour's tasks. The GPU it
builds holds the neighbour alone, so the interference it asks for is 1. -/
def neighbourDisturbed (device : DeviceType) (neighbour : Node) : List Task → Query Bool
  | [] => .ok false
  | t :: ts => do
      let name ← getModelName t.id
      let pure ← s.devLatency device name t.batchSize neighbour.resourcePntg
      let interference ← s.getInterference device t.id t.batchSize neighbour [neighbour] 1
      let overhead ← s.getBatchLatency name t.batchSize
      let duty := s.dutyOf neighbour
      let latency := pure * (interference - 1) + overhead + duty
      if latency + duty > t.SLO then return true
      else neighbourDisturbed device neighbour ts

def checkForInterference (device : DeviceType) (realNode : Node) (sim : SimState) :
    Query Bool :=
  if realNode.resourcePntg = 100 then .ok false
  else match getOtherNode realNode sim with
    | none => .ok false
    | some neighbour => s.neighbourDisturbed device neighbour neighbour.vTaskList

/-- The tests of `findBestFit` on one empty node that is large enough. -/
def fitsNode (sim : SimState) (input : Node) (task : Task) (gpu : GPU) (node : Node) :
    Query Bool := do
  let memOK ← if s.checkMem then s.doesFitMemLimit gpu task.id node else .ok true
  let latency ← s.getLatencyOn input.type task.id task.batchSize node sim
  if memOK && decide (latency + s.dutyOf input ≤ task.SLO) then
    let disturbed ← s.checkForInterference input.type node sim
    return !disturbed
  else return false

/-- The loop of `findBestFit` over the addresses of a decision. -/
def bestFitLoop (sim : SimState) (input : Node) (exclude : List Addr) :
    List Addr → Int × Option Addr → Query (Int × Option Addr)
  | [], best => .ok best
  | a :: as, (minDiff, best) =>
      match sim.vGPUList[a.gpu]?, sim.node? a with
      | some gpu, some node =>
          if gpu.TYPE ≠ input.type ∨ node.resourcePntg < input.resourcePntg ∨
              node.vTaskList ≠ [] ∨ a ∈ exclude then
            bestFitLoop sim input exclude as (minDiff, best)
          else match input.vTaskList with
            | [task] => do
                let ok ← s.fitsNode sim input task gpu node
                if ok then
                  -- "chose 100% nodes first"
                  let first := node.resourcePntg = 100 ∧ s.usePart
                  let minDiff := if first then 0 else minDiff
                  let best := if first then some a else best
                  if minDiff ≥ node.resourcePntg - input.resourcePntg then
                    bestFitLoop sim input exclude as
                      (node.resourcePntg - input.resourcePntg, some a)
                  else bestFitLoop sim input exclude as (minDiff, best)
                else bestFitLoop sim input exclude as (minDiff, best)
            | _ => .error .assertion
      | _, _ => .error .badAccess

def findBestFit (sim : SimState) (input : Node) (exclude : List Addr) : Query (Option Addr) := do
  let (minDiff, best) ← s.bestFitLoop sim input exclude sim.addrs (200, none)
  return if minDiff = 200 then none else best

/-- The `while(true)` of `checkFit`: the node that takes the gpu-let, what is
left of it, and the flagged nodes; `none` when nothing fits. -/
def checkFitOne (sim : SimState) (input : Node) :
    Nat → List Addr → List (Addr × Int) → Query (Option (Addr × Int × List Addr))
  | 0, _, _ => .error .diverges
  | fuel + 1, flagged, remain => do
      match ← s.findBestFit sim input flagged with
      | none => return none
      | some a =>
          match sim.node? a with
          | none => .error .badAccess
          | some node =>
              let left := (remain.lookup a).getD node.resourcePntg
              if left < input.resourcePntg then
                checkFitOne sim input fuel (a :: flagged) ((a, left) :: remain)
              else return some (a, left, flagged)

/-- `checkFit`: does the whole estimate fit? -/
def checkFitLoop (sim : SimState) : List Node → List Addr → List (Addr × Int) → Query Ret
  | [], _, _ => .ok .success
  | input :: rest, flagged, remain => do
      match ← s.checkFitOne sim input (sim.addrs.length + 1) flagged remain with
      | none => return .failure
      | some (a, left, flagged) =>
          let left := if s.useRepartition && left == 100 then left - input.resourcePntg else 0
          let flagged := if left = 0 then a :: flagged else flagged
          checkFitLoop sim rest flagged ((a, left) :: remain)

def checkFit (candidates : List Node) (sim : SimState) : Query Ret :=
  s.checkFitLoop sim candidates [] []

/-- `cmp_nodeptr_dsc`. -/
def cmpNodeDsc (a b : Node) : Bool := decide (a.resourcePntg > b.resourcePntg)

/-- `cmp_task_dsc`. -/
def cmpTaskDsc (a b : Task) : Bool :=
  decide (a.requestRate * a.SLO < b.requestRate * b.SLO ∨
    (a.requestRate * a.SLO = b.requestRate * b.SLO ∧ a.id > b.id))

end Scheduler

def checkContain (modelNum : Int) (node : Node) : Bool :=
  node.vTaskList.any fun t => t.id == modelNum

def isModelScheduled (task : Task) (sim : SimState) : Bool :=
  sim.nodes.any fun n => n.vTaskList.any fun t => t.id == task.id

end Glet
