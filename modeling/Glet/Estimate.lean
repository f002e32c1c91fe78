import Glet.Base

/-!
# Estimating gpu-lets

The saturation table of a model and the routines that turn a request rate
into a list of gpu-lets (`estimateTrp`, `getEstimateTrpST`) or into the most
cost-effective device type (`getMinPartSum`). Nothing here writes to a
decision.

The source passes `getMaxPartSize(decision)` down to `estimateTrp` and
`getEstimateTrpST`, where no one reads it; the parameter is left out.
-/

namespace Glet

namespace Scheduler

variable (s : Scheduler)

/-! ## The saturation table -/

/-- One entry of the table built by `initSaturateTrp`; `none` on its
"cannot setup SaturateTable" exit. -/
def satTrpEntry (task : Task) (type : DeviceType) (part : Int) : Query (Option SatTrpEntry) := do
  let node := makeEmptyNode 0 part type
  let (batch, _) ← s.getMaxBatch task.id task.SLO node ⟨[], []⟩ task.requestRate false false
  let row := fun maxBatch => do
    let latency ← s.getLatency type task.id maxBatch part
    let satTrp ← fdiv (maxBatch * 1000) latency
    return some { part, maxBatch, satTrp, type }
  if batch = 0 then
    let latency ← s.getLatency type task.id 1 part
    -- "check if this is because 2*L(b=1) > SLO"
    if 2 * latency > task.SLO then row 1 else return none
  else row batch

/-- Entries for a list of (type, part) pairs; `none` if one cannot be set up. -/
def satTrpEntries (task : Task) : List (DeviceType × Int) → Query (Option (List SatTrpEntry))
  | [] => .ok (some [])
  | (type, part) :: rest => do
      match ← s.satTrpEntry task type part with
      | none => return none
      | some e => do
          match ← satTrpEntries task rest with
          | none => return none
          | some es => return some (e :: es)

/-- `initSaturateTrp`: the table afterwards. -/
def initSaturateTrp (task : Task) (table : SatTable) : Query SatTable := do
  let pairs := s.typeToNumofTypeTable.flatMap fun (type, _) => s.availParts.map fun p => (type, p)
  match ← s.satTrpEntries task pairs with
  | none => return table
  | some entries => return fun id => if id = task.id then some entries else table id

/-- `getMaxSaturateTrp`: throughput and batch of the last matching entry. Its
`assert(found)` is told apart from the other assertions. -/
def getMaxSaturateTrp (table : SatTable) (id part : Int) (type : DeviceType) :
    Query (ℚ × Int) :=
  match table id with
  | none => .error .badAccess
  | some entries =>
      match (entries.filter fun e => decide (part = e.part ∧ type = e.type)).getLast? with
      | none => .error .notFound
      | some e => .ok (e.satTrp, e.maxBatch)

/-- Saturated throughput of every part of a list. -/
def satTrps (table : SatTable) (id : Int) (device : DeviceType) :
    List Int → Query (List (Int × ℚ))
  | [] => .ok []
  | part :: parts => do
      let (trp, _) ← getMaxSaturateTrp table id part device
      let rest ← satTrps table id device parts
      return (part, trp) :: rest

/-- The loop of `getMaxReturnPart` over (low, high) neighbours. -/
def maxReturnLoop : List ((Int × ℚ) × (Int × ℚ)) → ℚ → Int → Query Int
  | [], _, maxPart => .ok maxPart
  | ((lowPart, lowTrp), (highPart, highTrp)) :: rest, maxRet, maxPart => do
      let gain ← fdiv highTrp lowTrp
      if gain < 105 / 100 then maxReturnLoop rest maxRet maxPart
      else
        let ret ← fdiv (highTrp - lowTrp) (highPart - lowPart)
        if ret > maxRet then maxReturnLoop rest ret highPart
        else maxReturnLoop rest maxRet maxPart

/-- `getMaxReturnPart`. The parts are in descending order; the loop runs over
neighbours from the smallest up and never looks at the first part. -/
def getMaxReturnPart (table : SatTable) (id : Int) (device : DeviceType) : Query Int := do
  match s.availParts with
  | [] => .error .assertion
  | [part] => return part
  | _ :: parts => do
      let trps ← satTrps table id device s.availParts
      let ascending := (trps.drop 1).reverse
      maxReturnLoop (ascending.zip ascending.tail) 0 (parts.getLastD 0)

/-! ## Gpu-lets for a rate -/

/-- The loop of `getMinPart` over the parts, from the highest down. -/
def minPartLoop (device : DeviceType) (id SLO maxBatch rate localMaxPart front : Int) :
    List Int → Int → Query Int
  | [], prevPart => .ok prevPart
  | part :: parts, prevPart =>
      if part > localMaxPart then
        minPartLoop device id SLO maxBatch rate localMaxPart front parts prevPart
      else do
        let latency ← s.getLatency device id maxBatch part
        let duty ← fdiv (maxBatch * 1000) rate
        if duty < latency then return if part = front then part else prevPart
        else if SLO < latency + duty then return prevPart
        else minPartLoop device id SLO maxBatch rate localMaxPart front parts part

/-- `getMinPart`: the part, the batch (`none` when it is left unset), and the
rate left in the reference parameter. -/
def getMinPart (device : DeviceType) (id SLO : Int) (node : Node) (rate : Int) :
    Query (Int × Option Int × Int) := do
  match s.availParts with
  | [] => .error .badAccess
  | front :: _ => do
      let localMaxPart := min front node.resourcePntg
      let tempNode := makeEmptyNode node.id localMaxPart node.type
      let (batch, rate) ← s.getMaxBatch id SLO tempNode ⟨[], []⟩ rate true false
      if batch = 0 then return (0, none, rate)
      else
        assert (1 ≤ batch ∧ batch ≤ maxBatch)
        let part ← s.minPartLoop device id SLO batch rate localMaxPart front s.availParts
          localMaxPart
        return (part, some batch, rate)

/-- The saturated gpu-let of `estimateTrp`. -/
def saturatedNode (table : SatTable) (device : DeviceType) (id SLO rate part : Int)
    (size : Nat) : Query (Node × ℚ) := do
  let (trp, batch) ← getMaxSaturateTrp table id part device
  let latency ← s.getLatency device id batch part
  let node := makeEmptyNode size part device
  return ({ node with
    vTaskList := [createNewTask id rate SLO batch trp], dutyCycle := some latency,
    occupancy := 1 }, trp)

/-- The residue gpu-let of `estimateTrp`. -/
def residueNode (device : DeviceType) (id SLO rate part : Int) (size : Nat) : Query Node := do
  let node := makeEmptyNode size part device
  let (minPart, batch, rate) ← s.getMinPart device id SLO node rate
  let batch := batch.getD s.uninit.estimateBatch
  let latency ← s.getLatency device id batch minPart
  let period ← fdiv 1000 rate
  let duty := max (batch * period) latency
  let trp ← fdiv (batch * 1000) duty
  let occupancy ← fdiv latency duty
  return { node with
    resourcePntg := minPart, vTaskList := [createNewTask id rate SLO batch trp],
    dutyCycle := some duty, occupancy }

/-- The inner loop of `getEstimateTrpST`: the first part whose throughput
exceeds the rate, or the last one. -/
def selfTuningPart (table : SatTable) (id rate : Int) (device : DeviceType) :
    List Int → Int × Int × Int → Query (Int × Int × Int)
  | [], best => .ok best
  | part :: parts, _ => do
      let (trp, batch) ← getMaxSaturateTrp table id part device
      if toInt trp > rate then return (part, toInt trp, batch)
      else selfTuningPart table id rate device parts (part, toInt trp, batch)

/-- `getEstimateTrpST`; fuel is the rate. -/
def getEstimateTrpST (table : SatTable) (device : DeviceType) (id SLO : Int) :
    Nat → Int → List Node → Query (List Node)
  | fuel, rate, out =>
      if rate ≤ 0 then .ok out
      else match fuel with
        | 0 => .error .diverges
        | fuel + 1 => do
            let parts := s.stdSort.sort (fun a b => decide (a < b)) s.availParts
            let (part, trp, batch) ← selfTuningPart table id rate device parts (0, 0, 0)
            assert (trp ≠ 0 ∧ part ≠ 0)
            let latency ← s.getLatency device id batch part
            let period ← fdiv 1000 rate
            let duty := batch * period
            let occupancy ← fdiv latency duty
            let node := makeEmptyNode out.length part device
            let node := { node with
              vTaskList := [createNewTask id rate SLO batch trp], dutyCycle := some duty,
              occupancy }
            getEstimateTrpST table device id SLO fuel (rate - trp) (out ++ [node])

/-- `estimateTrp`: the output vector afterwards. Fuel is one more than the
rate, which each saturated gpu-let lowers. -/
def estimateTrp (table : SatTable) (device : DeviceType) (id SLO : Int) :
    Nat → Int → List Node → Query (List Node)
  | fuel, rate, out =>
      if rate ≤ trpSlack then .ok out
      else if s.useSelfTuning then
        s.getEstimateTrpST table device id SLO rate.toNat rate out
      else match fuel with
        | 0 => .error .diverges
        | fuel + 1 => do
            let maxPart ← s.getMaxReturnPart table id device
            let (limit, _) ← getMaxSaturateTrp table id maxPart device
            if limit < rate then
              let (node, trp) ← s.saturatedNode table device id SLO rate maxPart out.length
              estimateTrp table device id SLO fuel (toInt (rate - trp)) (out ++ [node])
            else
              let node ← s.residueNode device id SLO rate maxPart out.length
              return out ++ [node]

/-- `estimateTrp` as the other routines call it, on an empty vector. -/
def estimate (table : SatTable) (device : DeviceType) (id SLO rate : Int) :
    Query (List Node) :=
  s.estimateTrp table device id SLO (rate.toNat + 1) rate []

/-! ## The device type to use -/

/-- `part_sum_per_type`. -/
def partSums (table : SatTable) (id SLO rate : Int) :
    List (DeviceType × Int) → Query (List (DeviceType × Int))
  | [] => .ok []
  | (type, _) :: rest => do
      let nodes ← s.estimate table type id SLO rate
      let sums ← partSums table id SLO rate rest
      return (type, (nodes.map (·.resourcePntg)).sum) :: sums

/-- Smallest part sum, its first type, and whether some type repeated the
smallest sum seen so far. -/
def minPartSum : List (DeviceType × Int) → Int × DeviceType × Bool → Int × DeviceType × Bool
  | [], acc => acc
  | (type, sum) :: rest, (minParts, output, same) =>
      let same := same || minParts == sum
      if sum < minParts then minPartSum rest (sum, type, same)
      else minPartSum rest (minParts, output, same)

/-- The tie break of `getMinPartSum`: lowest utilization of one whole GPU. -/
def tieBreak (table : SatTable) (id rate minParts : Int) :
    List (DeviceType × Int) → ℚ → DeviceType → Query DeviceType
  | [], _, output => .ok output
  | (type, sum) :: rest, best, output =>
      if sum ≠ minParts then tieBreak table id rate minParts rest best output
      else do
        let idealPart ← s.getMaxReturnPart table id type
        let (trp, _) ← getMaxSaturateTrp table id idealPart type
        let (other, _) ← getMaxSaturateTrp table id (100 - idealPart) type
        let utilization ← fdiv rate (trp + other)
        if best > utilization then tieBreak table id rate minParts rest utilization type
        else tieBreak table id rate minParts rest best output

def getMinPartSum (table : SatTable) (task : Task) : Query DeviceType := do
  let sums ← s.partSums table task.id task.SLO task.requestRate s.typeToNumofTypeTable
  let (minParts, output, same) := minPartSum sums (100000, "", false)
  if same then s.tieBreak table task.id task.requestRate minParts sums 10 output
  else return output

def getEstimate (table : SatTable) (task : Task) : Query (List Node) := do
  let type ← s.getMinPartSum table task
  s.estimate table type task.id task.SLO task.requestRate

end Scheduler

end Glet
