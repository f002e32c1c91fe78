import Glet.Types

/-!
# `BaseScheduler`

The routines of `scheduler_base.cpp` and `scheduler_utils.cpp` that the
incremental scheduler is built on: device set-up, latency and interference
estimates, the batch-size search and the interference adjustments. All of
them only read the decision; `adjustResNode` and `adjustSatNode` return the
node they would leave behind.

`getLatency` has two overloads in the source; the one that takes a node and
a decision is `getLatencyOn` here.
-/

namespace Glet

/-! ## Set-up -/

namespace Scheduler

variable (s : Scheduler)

def makeEmptyNode (gpuId : Nat) (resourcePntg : Int) (type : DeviceType) : Node :=
  { vTaskList := [], dutyCycle := none, occupancy := 0, resourcePntg, id := gpuId,
    reserved := false, dedupNum := 0, type }

/-- `createNewTaskPtr(id, request_rate, SLO, batch_size, throughput)`. -/
def createNewTask (id requestRate SLO batchSize : Int) (throughput : ℚ) : Task :=
  { id, requestRate, additionalRate := 0, SLO, batchSize, throughput }

/-- The devices of `_typeToNumofTypeTable`, one entry each, in map order. -/
def deviceTypes : List DeviceType :=
  s.typeToNumofTypeTable.flatMap fun (type, num) => List.replicate num.toNat type

/-- The loop of `initiateDevs` from device `idx` on. -/
def initiateDevsFrom (nDevs : Int) : List DeviceType → Nat → List GPU
  | [], _ => []
  | type :: types, idx =>
      { GPUID := idx, totalMemory := s.uninit.memory, usedMemory := s.uninit.memory,
        TYPE := type, vLoadedParts := [], vNodeList := [makeEmptyNode idx 100 type] } ::
        if (idx + 1 : Int) ≥ nDevs then [] else initiateDevsFrom nDevs types (idx + 1)

def initiateDevs (input : SimState) (nDevs : Int) : SimState :=
  { input with vGPUList := s.initiateDevsFrom nDevs s.deviceTypes 0 }

def initDevMem (gpu : GPU) (mem : Nat) : GPU :=
  { gpu with totalMemory := mem, usedMemory := 0 }

/-- The loop of `initDevMems`: device types and GPUs in step. -/
def initDevMemsFrom : List DeviceType → List GPU → List GPU
  | type :: types, gpu :: gpus =>
      initDevMem gpu (s.nametoDevPerfModelTable type).getDevMem :: initDevMemsFrom types gpus
  | _, gpus => gpus

def initDevMems (input : SimState) : Query SimState := do
  assert (input.vGPUList ≠ [])
  return { input with vGPUList := s.initDevMemsFrom s.deviceTypes input.vGPUList }

/-- Read a duty cycle; an unset one reads as whatever the memory held. -/
def dutyOf (n : Node) : ℚ := n.dutyCycle.getD (s.uninit.duty n)

end Scheduler

/-! ## Latency and interference -/

def idToModelName : List Model :=
  [.lenet1, .lenet2, .lenet3, .lenet4, .lenet5, .lenet6, .googlenet, .resnet50,
   .ssdMobilenetv1, .vgg16, .mnasnet1_0, .mobilenet_v2, .densenet161, .bert]

def getModelName (id : Int) : Query Model :=
  if id < 0 then .error .badAccess
  else match idToModelName[id.toNat]? with
    | some name => .ok name
    | none => .error .badAccess

def isSameNode (a b : Node) : Bool :=
  a.id == b.id && a.resourcePntg == b.resourcePntg && a.dedupNum == b.dedupNum

/-- "assuming there are only two nodes per GPU, get the other node" -/
def getOtherNode (theNode : Node) (sim : SimState) : Option Node :=
  ((sim.vGPUList.filter fun g => g.GPUID == theNode.id).flatMap (·.vNodeList)).find?
    fun n => !isSameNode theNode n

namespace Scheduler

variable (s : Scheduler)

def getBatchLatency (name : Model) (batch : Int) : Query ℚ := do
  assert (batch ≥ 1)
  let ret : ℚ := match name with
    | .lenet1 | .lenet2 | .lenet3 | .lenet4 | .lenet5 | .lenet6 => 4 / 10
    | .resnet50 | .googlenet | .vgg16 | .mnasnet1_0 | .mobilenet_v2 | .densenet161 =>
        19 / 10 * s.batchLatency_3_224_224 batch
    | .ssdMobilenetv1 => 5 / 2 * s.batchLatency_3_300_300 batch
    | .bert => 1
  assert (ret ≠ 0)
  return ret

/-- `_nametoDevPerfModelTable[device].getLatency(...)`. -/
def devLatency (device : DeviceType) (name : Model) (batch part : Int) : Query ℚ :=
  match (s.nametoDevPerfModelTable device).getLatency name batch part with
  | some latency => .ok latency
  | none => .error .badQuery

/-- `batch_overhead`: 0 unless `_useBatchingOverhead`. -/
def batchOverhead (name : Model) (batch : Int) : Query ℚ :=
  if s.useBatchingOverhead then s.getBatchLatency name batch else .ok 0

/-- Execution latency of a model alone on a partition: both overloads of
`getLatency` compute this when interference is off. -/
def soloLatency (device : DeviceType) (modelNum batch part : Int) : Query ℚ := do
  let name ← getModelName modelNum
  let latency ← s.devLatency device name batch part
  let overhead ← s.batchOverhead name batch
  return (latency + overhead) * s.latencyRatio

/-- "more simple version of getting latency without considering interference" -/
def getLatency (device : DeviceType) (modelNum batch part : Int) : Query ℚ := do
  assert (device ≠ "")
  assert (1 ≤ batch ∧ batch ≤ maxBatch)
  s.soloLatency device modelNum batch part

/-- Interference of `b` on `a`, at least 1. -/
def getInterferencePair (device : DeviceType) (a b aBatch bBatch aPart bPart : Int) :
    Query ℚ := do
  assert (device ≠ "")
  let modelA ← getModelName a
  let modelB ← getModelName b
  let alpha := (s.nametoDevPerfModelTable device).getInterference modelA aBatch aPart
    modelB bBatch bPart
  return if alpha > 1 then alpha else 1

/-- Largest interference on one task of `node` by the tasks of `tasks`, all
running on a partition of size `part`. -/
def maxInterference (device : DeviceType) (modelId batchSize nodePart part : Int) :
    List Task → ℚ → Query ℚ
  | [], acc => .ok acc
  | t :: ts, acc => do
      let i ← s.getInterferencePair device modelId t.id batchSize t.batchSize nodePart part
      maxInterference device modelId batchSize nodePart part ts (if acc < i then i else acc)

/-- Largest interference on one task of `node` by the other nodes of a GPU. -/
def getInterference (device : DeviceType) (modelId batchSize : Int) (node : Node) :
    List Node → ℚ → Query ℚ
  | [], acc => .ok acc
  | n :: ns, acc =>
      if isSameNode n node then getInterference device modelId batchSize node ns acc
      else do
        let acc ← s.maxInterference device modelId batchSize node.resourcePntg
          n.resourcePntg n.vTaskList acc
        getInterference device modelId batchSize node ns acc

/-- The overload of `getLatency` that takes a node of a decision. -/
def getLatencyOn (device : DeviceType) (modelNum batch : Int) (node : Node) (sim : SimState) :
    Query ℚ := do
  assert (device ≠ "")
  assert (batch ≥ 1)
  if s.useInterference then
    let name ← getModelName modelNum
    let latency ← s.devLatency device name batch node.resourcePntg
    let overhead ← s.batchOverhead name batch
    match sim.vGPUList[node.id]? with
    | some gpu => do
        let i ← s.getInterference device modelNum batch node gpu.vNodeList 1
        return (latency + overhead + latency * (i - 1)) * s.latencyRatio
    | none => return (latency + overhead) * s.latencyRatio
  else s.soloLatency device modelNum batch node.resourcePntg

/-! ## The batch-size search -/

/-- `latency + 1000*batch/req <= SLO`; a zero rate makes the period infinite. -/
def residueFits (latency : ℚ) (batch req SLO : Int) : Bool :=
  req ≠ 0 && latency + 1000 * batch / req ≤ SLO

/-- The bisection of `getMaxBatch` between `low` and `high`. `check_last` is
set in the turn where both are 1. -/
def maxBatchLoop (latencyAt : Int → Query ℚ) (fits : ℚ → Int → Bool) :
    Nat → Int → Int → Query Int
  | 0, _, _ => .error .diverges
  | fuel + 1, low, high => do
      let mid := (high + low) / 2
      let latency ← latencyAt mid
      let checkLast := low == 1 && high == 1
      if fits latency mid then
        let high := if high - mid ≤ 1 then mid else high
        if high = mid ∧ (mid ≠ 1 ∨ checkLast) then return mid
        else maxBatchLoop latencyAt fits fuel mid high
      else if checkLast then return 0
      else
        let high := if mid - low ≤ 1 then low else mid
        if high = low ∧ low ≠ 1 then return low
        else maxBatchLoop latencyAt fits fuel low high

/-- `getMaxBatch`: the batch size, and the rate left in the reference
parameter `req`. -/
def getMaxBatch (id SLO : Int) (node : Node) (sim : SimState) (req : Int)
    (isResidue interference : Bool) : Query (Int × Int) := do
  let latencyAt := fun batch =>
    if interference then s.getLatencyOn node.type id batch node sim
    else s.getLatency node.type id batch node.resourcePntg
  let fits := fun latency batch =>
    if isResidue then residueFits latency batch req SLO else decide (2 * latency ≤ SLO)
  let batch ← maxBatchLoop latencyAt fits maxBatch.toNat 1 maxBatch
  if batch = 0 ∧ isResidue then
    -- "corner checking small request rates"
    let b1 ← s.getLatencyOn node.type id 1 node sim
    if (req = 0 ∨ b1 < 1000 / req) ∧ b1 < SLO then
      return (1, toInt (1000 / (SLO - b1) * s.latencyRatio))
    else return (0, req)
  else return (batch, req)

/-! ## Adjustments for interference -/

/-- Sum of the latencies of a node's tasks at their batch sizes. -/
def latencySum (node : Node) (sim : SimState) : List Task → Query ℚ
  | [] => .ok 0
  | t :: ts => do
      let latency ← s.getLatencyOn node.type t.id t.batchSize node sim
      let rest ← latencySum node sim ts
      return latency + rest

/-- The inner loop of `adjustResNode`: shrink the batch until the task's SLO
holds; `none` when it reaches 0. -/
def shrinkResBatch (node : Node) (sim : SimState) (t : Task) (other : ℚ) :
    Nat → ℚ → ℚ → Query (Option (Int × ℚ))
  | newBatch, latency, newDuty =>
      if (t.SLO : ℚ) < other + latency + newDuty then
        match newBatch with
        | 0 => .error .diverges
        | 1 => .ok none
        | k + 2 => do
            let latency ← s.getLatencyOn node.type t.id (k + 1 : Nat) node sim
            let ratio ← fdiv (k + 1 : Nat) t.batchSize
            shrinkResBatch node sim t other (k + 1) latency (newDuty * ratio)
      else .ok (some (newBatch, newDuty))

/-- New batch size and duty cycle for every task of the node. -/
def shrinkResTasks (node : Node) (sim : SimState) (sum : ℚ) :
    List Task → Query (Option (List (Int × ℚ)))
  | [] => .ok (some [])
  | t :: ts => do
      let latency ← s.getLatencyOn node.type t.id t.batchSize node sim
      match ← s.shrinkResBatch node sim t (sum - latency) t.batchSize.toNat latency
          (s.dutyOf node) with
      | none => return none
      | some r => do
          match ← shrinkResTasks node sim sum ts with
          | none => return none
          | some rs => return some (r :: rs)

/-- The task writes of `adjustResNode`. -/
def rewriteResTasks (minDuty : ℚ) : List Task → List (Int × ℚ) → Query (List Task)
  | t :: ts, (batch, _) :: rs => do
      let throughput ← fdiv (1000 * batch) minDuty
      let rest ← rewriteResTasks minDuty ts rs
      return { t with batchSize := batch, throughput } :: rest
  | _, _ => .ok []

/-- `adjustResNode`: the adjusted node, or `none` on EXIT_FAILURE. -/
def adjustResNode (node : Node) (sim : SimState) : Query (Option Node) := do
  let sum ← s.latencySum node sim node.vTaskList
  let duty := s.dutyOf node
  -- "considering how fast residue nodes can serve, we allow some slack"
  if node.vTaskList.all fun t => decide (sum + duty ≤ t.SLO * (105 / 100)) then
    return some node
  else
    match ← s.shrinkResTasks node sim sum node.vTaskList with
    | none => return none
    | some rs => do
        assert (rs ≠ [])
        let minDuty := (rs.map (·.2)).foldl min ((rs.map (·.2)).headD 0)
        let tasks ← rewriteResTasks minDuty node.vTaskList rs
        let sum ← s.latencySum node sim tasks
        let occupancy ← fdiv sum minDuty
        return some { node with vTaskList := tasks, dutyCycle := some minDuty, occupancy }

/-- The loop of `adjustSatNode`: largest smaller batch with twice its latency
within the SLO; `none` when it reaches 0. Returns batch and duty cycle. -/
def shrinkSatBatch (node : Node) (sim : SimState) (t : Task) :
    Nat → ℚ → ℚ → Query (Option (Int × ℚ))
  | newBatch, latency, newDuty =>
      if (t.SLO : ℚ) < 2 * latency then
        match newBatch with
        | 0 => .error .diverges
        | 1 => .ok none
        | k + 2 => do
            let latency ← s.getLatencyOn node.type t.id (k + 1 : Nat) node sim
            shrinkSatBatch node sim t (k + 1) latency latency
      else .ok (some (newBatch, newDuty))

/-- `adjustSatNode`: the adjusted node and the amount to add to
`task_to_update.additional_rate`, or `none` on EXIT_FAILURE. -/
def adjustSatNode (node : Node) (sim : SimState) : Query (Option (Node × Int)) := do
  match node.vTaskList with
  | [t] =>
      assert (node.occupancy ≥ 1)
      let latency ← s.getLatencyOn node.type t.id t.batchSize node sim
      if 2 * latency < t.SLO then
        let throughput ← fdiv (t.batchSize * 1000) latency
        let lost := toInt (t.throughput - throughput)
        return some ({ node with vTaskList := [{ t with throughput }] }, max lost 0)
      else
        let _ ← s.getLatency node.type t.id t.batchSize node.resourcePntg
        match ← s.shrinkSatBatch node sim t t.batchSize.toNat latency (s.dutyOf node) with
        | none => return none
        | some (minBatch, minDuty) => do
            assert (minDuty ≠ 0)
            assert (minBatch ≠ 0)
            let period ← fdiv 1000 minDuty
            let throughput := minBatch * period
            let lost := if t.throughput > throughput then toInt (t.throughput - throughput) else 0
            return some
              ({ node with
                  vTaskList := [{ t with batchSize := minBatch, throughput }]
                  dutyCycle := some minDuty }, lost)
  | _ => .error .assertion

end Scheduler

/-! ## `scheduler_utils.cpp` -/

/-- The copy that `copyToOutput` makes: the memory fields and the
`additional_rate` of the tasks are not copied. -/
def copyGPU (s : Scheduler) (gpu : GPU) : GPU :=
  { GPUID := gpu.GPUID, totalMemory := s.uninit.memory, usedMemory := s.uninit.memory,
    TYPE := gpu.TYPE, vLoadedParts := [],
    vNodeList := gpu.vNodeList.map fun n =>
      { n with vTaskList := n.vTaskList.map fun t =>
        { t with additionalRate := s.uninit.additionalRate } } }

/-- What `copyToOutput` does to its input: the loaded parts it computes are
pushed on the input GPU. -/
def markLoadedParts (gpu : GPU) : GPU :=
  { gpu with vLoadedParts := gpu.vLoadedParts ++
      (gpu.vNodeList.filter fun n => !n.vTaskList.isEmpty).map fun n =>
        ⟨n.resourcePntg, n.dedupNum⟩ }

/-- `copyToOutput`: the input as it is left, and the output. -/
def copyToOutput (s : Scheduler) (input : SimState) : SimState × SimState :=
  ({ input with vGPUList := input.vGPUList.map markLoadedParts },
   { vGPUList := input.vGPUList.map (copyGPU s), parts := input.parts })

end Glet
