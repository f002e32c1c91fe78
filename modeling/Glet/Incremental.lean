import Glet.Actions

/-!
# `IncrementalScheduler`

The routines of `scheduler_incremental.cpp` that build a decision:
`allocateFit`, `readjust`, `mergeResidue` and `allocateTimeShare`, the
per-task driver `addModeltoSchedule`, the passes over a session
(`elasticPartitioning`, `incrementalScehduling`) and `runScheduling`.

They are programs over the recorder (`Sched`). Loops over nodes are
recursions over addresses; the loops of `readjust` and of the passes carry
fuel. Two orders of independent statements differ from the source: memory
is charged before the rate is lowered in `readjust`, and after the other
tasks are re-timed in `allocateTimeShare`.
-/

namespace Glet

open Recorder

abbrev Sched := Prog Core Action Fault

namespace Scheduler

variable (s : Scheduler)

/-! ## Access to the decision -/

def act (a : Action) : Sched Unit := Prog.act (Action.apply s.useRepartition) a

def getSim : Sched SimState := Prog.ask fun c => .ok c.sim

def getTask : Sched Task := Prog.ask fun c => .ok c.task

def query {β : Type} (q : Query β) : Sched β := Prog.ask fun _ => q

def getNode (a : Addr) : Sched Node := Prog.ask fun c =>
  match c.sim.node? a with
  | some n => .ok n
  | none => .error .badAccess

/-- `decision.vGPUList[i]`. -/
def getGPU (i : Nat) : Sched GPU := Prog.ask fun c =>
  match c.sim.vGPUList[i]? with
  | some g => .ok g
  | none => .error .badAccess

/-- The node addresses of GPU `i`. -/
def gpuAddrs (sim : SimState) (i : Nat) : List Addr :=
  match sim.vGPUList[i]? with
  | some g => (List.range g.vNodeList.length).map fun j => ⟨i, j⟩
  | none => []

/-- `addGPUMemUsage` for the current task, in a CHECK_MEM build. -/
def addGPUMemUsage (a : Addr) : Sched Unit :=
  if s.checkMem then do
    let node ← getNode a
    let task ← getTask
    let gpu ← getGPU node.id
    match ← query (s.addedGPUMemUsage gpu task.id node) with
    | some (used, m) => s.act (.charge a node.id used m)
    | none => s.act (.skipCharge a)
  else pure ()

/-! ## `allocateFit` -/

/-- The estimated gpu-let after its partition grew to that of the node found
for it; `none` when no batch size is feasible there. -/
def resizeInput (sim : SimState) (input : Node) (pntg : Int) : Query (Option Node) := do
  let isResidue : Bool := decide (input.occupancy ≠ 1)
  let input := { input with resourcePntg := pntg }
  match input.vTaskList with
  | [t] => do
      let (batch, rate) ← s.getMaxBatch t.id t.SLO input sim t.requestRate isResidue true
      if batch = 0 then return none
      else
        let latency ← s.getLatencyOn input.type t.id batch input sim
        let period ← if isResidue then fdiv (batch * 1000) rate else .ok latency
        let duty := if isResidue then max period latency else latency
        let throughput ← fdiv (batch * 1000) duty
        let occupancy ← fdiv latency duty
        let t := { t with requestRate := rate, batchSize := batch, throughput }
        return some { input with vTaskList := [t], dutyCycle := some duty, occupancy }
  | _ => .error .assertion

/-- The interference section of `allocateFit` over the nodes of the GPU. -/
def adjustFitNodes : List Addr → Sched Ret
  | [] => pure .success
  | b :: bs => do
      let node ← getNode b
      let sim ← getSim
      if node.occupancy = 1 then
        match ← query (s.adjustSatNode node sim) with
        | none => pure .failure
        | some (n, lost) => do
            s.act (.adjust b n)
            s.act (.addRate lost)
            adjustFitNodes bs
      else
        match ← query (s.adjustResNode node sim) with
        | none => adjustFitNodes bs
        | some n => do
            s.act (.adjust b n)
            adjustFitNodes bs

def adjustFit (a : Addr) : Sched Ret :=
  if s.useInterference then do
    let node ← getNode a
    let sim ← getSim
    s.adjustFitNodes (gpuAddrs sim node.id)
  else pure .success

/-- One estimated gpu-let: find its node, resize or split, place it. -/
def allocateFitOne (input : Node) : Sched Ret := do
  let sim ← getSim
  match ← query (s.findBestFit sim input []) with
  | none => pure .failure
  | some a => do
      let best ← getNode a
      let grows : Bool := decide (best.resourcePntg ≠ 100 ∧ best.resourcePntg > input.resourcePntg)
      let splits : Bool := decide (best.resourcePntg = 100 ∧ input.resourcePntg < 100) &&
        s.useRepartition
      let resized ← if grows then query (s.resizeInput sim input best.resourcePntg)
        else pure (some input)
      match resized with
      | none => pure .failure
      | some n => do
          if splits then do
            let _ ← getGPU best.id
            s.act (.split a input.resourcePntg)
          else pure ()
          s.act (.fit a n (!grows && !splits))
          s.addGPUMemUsage a
          match ← s.adjustFit a with
          | .failure => do
              s.act .leave
              pure .failure
          | .success => do
              let node ← getNode a
              let task ← getTask
              match node.vTaskList with
              | [t] => do
                  s.act (.accept a (toInt (task.requestRate - t.throughput)))
                  pure .success
              | _ => query (.error .assertion)

def allocateFit : List Node → Sched Ret
  | [] => do
      let task ← getTask
      if task.requestRate + task.additionalRate > trpSlack then pure .failure
      else
        s.act .finish
        pure .success
  | input :: rest => do
      match ← s.allocateFitOne input with
      | .failure => pure .failure
      | .success => allocateFit rest

/-! ## `readjust` -/

/-- `sort(given.begin(), given.end(), cmp_nodeptr_dsc)`. -/
def sortNodes (sim : SimState) (given : List Addr) : List Addr :=
  s.stdSort.sort (fun a b =>
    match sim.node? a, sim.node? b with
    | some x, some y => cmpNodeDsc x y
    | _, _ => false) given

/-- The node to use next: the first given one of the prioritized type, or the
first of all. -/
def chooseNode (table : SatTable) (task : Task) (sim : SimState) (given : List Addr) :
    Query Addr := do
  let type ← if s.priorityCheck then .ok s.priorityType else s.getMinPartSum table task
  assert (given ≠ [])
  let _ ← s.getMaxReturnPart table task.id type
  match given.find? fun a => decide ((sim.node? a).map (·.type) = some type) with
  | some a => return a
  | none => match given with
      | a :: _ => return a
      | [] => .error .badAccess

/-- Split a whole GPU for the first gpu-let estimated for the task. Returns
that gpu-let's batch size and the given nodes, the new one included. -/
def splitGiven (table : SatTable) (a : Addr) (given : List Addr) : Sched (Int × List Addr) := do
  let task ← getTask
  let node ← getNode a
  match ← query (s.estimate table node.type task.id task.SLO task.requestRate) with
  | [] => query (.error .assertion)
  | first :: _ =>
      match first.vTaskList with
      | [t] =>
          if first.resourcePntg < 100 then do
            let gpu ← getGPU node.id
            s.act (.split a first.resourcePntg)
            let sim ← getSim
            let given := given ++ [⟨node.id, gpu.vNodeList.length⟩]
            pure (t.batchSize, given.take 1 ++ s.sortNodes sim (given.drop 1))
          else pure (t.batchSize, given)
      | _ => query (.error .assertion)

/-- The loop of `checkNeedtoRevert` over the other nodes of the GPU. -/
def adjustOtherNodes (new : Node) : List Addr → Bool → Sched Bool
  | [], revert => pure revert
  | b :: bs, revert => do
      let node ← getNode b
      let sim ← getSim
      if node.dedupNum = new.dedupNum ∧ node.resourcePntg = new.resourcePntg then
        adjustOtherNodes new bs revert
      else if node.occupancy ≥ 1 then
        match ← query (s.adjustSatNode node sim) with
        | none => pure true
        | some (n, lost) => do
            -- here `task_to_update` is the node's own task
            s.act (.adjust b { n with vTaskList := n.vTaskList.map fun t =>
              { t with additionalRate := t.additionalRate + lost } })
            adjustOtherNodes new bs revert
      else
        match ← query (s.adjustResNode node sim) with
        | none => adjustOtherNodes new bs true
        | some n => do
            s.act (.adjust b n)
            adjustOtherNodes new bs revert

/-- `checkNeedtoRevert`: must the gpu-let just placed on `a` be taken back? -/
def checkNeedtoRevert (a : Addr) : Sched Bool := do
  let node ← getNode a
  let gpu ← getGPU node.id
  let overBW := s.checkNetBW && s.isNLCInitated && !s.isBandwidthOK gpu
  if overBW then pure () else s.act (.bandwidthOK a)
  if s.useInterference then
    let sim ← getSim
    let revert ← s.adjustOtherNodes node (gpuAddrs sim node.id) overBW
    if revert then pure () else s.act .absorb
    pure revert
  else pure overBW

/-- Keep or take back the gpu-let just placed on `a`. `remaining` is the
rate left when a throughput is taken off a rate. -/
def settle (a : Addr) (t : Task) (remaining : Int → ℚ → Int) : Sched Unit := do
  let revert ← s.checkNeedtoRevert a
  if revert then
    let node ← getNode a
    query (assert (node.vTaskList.length ≤ 1))
    s.act (.revert a)
  else
    s.addGPUMemUsage a
    let task ← getTask
    s.act (.accept a (remaining task.requestRate t.throughput))

/-- `adjustBatchSizetoNetBW`, in a CHECK_NETBW build. -/
def limitToNetBW (t : Task) (gpu : GPU) : Query (Option Task) :=
  if s.checkNetBW then s.adjustBatchSizetoNetBW t gpu else .ok (some t)

/-- How the saturate loop of `readjust` ends. -/
inductive LoopEnd where
  | stop
  | toResidue (given : List Addr)
  | failed

/-- Batch size for a saturated gpu-let on `a`; a whole GPU is split first. -/
def saturateBatch (table : SatTable) (a : Addr) (given : List Addr) :
    Sched (Int × List Addr) := do
  let node ← getNode a
  if node.resourcePntg = 100 ∧ s.usePart ∧ s.useRepartition then s.splitGiven table a given
  else
    let task ← getTask
    let sim ← getSim
    let (batch, _) ← query (s.getMaxBatch task.id task.SLO node sim task.requestRate false true)
    -- "assuming we can modify the batch size later, we fix the temporary max batch size to 1"
    pure (if batch = 0 then 1 else batch, given)

/-- Place a saturated gpu-let of this batch size on `a`: `none` when the
network limit ends `readjust`. -/
def placeSaturated (a : Addr) (batch : Int) (latency trp : ℚ) : Sched (Option Unit) := do
  let task ← getTask
  let node ← getNode a
  let gpu ← getGPU node.id
  match ← query (s.limitToNetBW (createNewTask task.id task.requestRate task.SLO batch trp) gpu) with
  | none => pure none
  | some t => do
      let fits ← query (s.doesFitMemLimit gpu task.id node)
      if fits then do
        s.act (.place a .saturated t latency 1)
        s.settle a t fun rate trp => toInt (rate - trp)
        pure (some ())
      else pure (some ())

/-- "readjusted saturate scheduling" -/
def saturateLoop (table : SatTable) : Nat → List Addr → Sched LoopEnd
  | 0, _ => query (.error .diverges)
  | fuel + 1, given => do
      let task ← getTask
      if task.requestRate + task.additionalRate ≤ trpSlack ∨ given = [] then pure .stop
      else
        let sim ← getSim
        let a ← query (s.chooseNode table task sim given)
        let (batch, given) ← s.saturateBatch table a given
        let node ← getNode a
        let sim ← getSim
        let latency ← query (s.getLatencyOn node.type task.id batch node sim)
        let period ← query (fdiv 1000 latency)
        if batch * period > task.requestRate then pure (.toResidue given)
        else
          match ← s.placeSaturated a batch latency (batch * period) with
          | none => pure .failed
          | some () => saturateLoop table fuel (given.erase a)

/-- Split a whole GPU before a residue gpu-let goes on it. -/
def splitResidue (table : SatTable) (a : Addr) (given : List Addr) : Sched (List Addr) := do
  let node ← getNode a
  if node.resourcePntg = 100 ∧ s.usePart ∧ s.useRepartition then
    let (_, given) ← s.splitGiven table a given
    pure given
  else pure given

/-- Place a residue gpu-let on `a`: `none` when `readjust` fails. -/
def placeResidue (a : Addr) : Sched (Option Unit) := do
  let node ← getNode a
  let sim ← getSim
  let task ← getTask
  let (batch, rate) ← query (s.getMaxBatch task.id task.SLO node sim task.requestRate true true)
  s.act (.rerate rate)
  if batch = 0 then pure none
  else
    let period ← query (fdiv 1000 rate)
    let duty := batch * period
    s.act (.prime a duty node.occupancy)
    let trp ← query (fdiv (1000 * batch) duty)
    let gpu ← getGPU node.id
    match ← query (s.limitToNetBW (createNewTask task.id rate task.SLO batch trp) gpu) with
    | none => pure none
    | some t => do
        let latency ← query (s.getLatencyOn node.type task.id t.batchSize node sim)
        let occupancy ← query (fdiv latency duty)
        s.act (.prime a duty occupancy)
        let fits ← query (s.doesFitMemLimit gpu task.id node)
        if fits then do
          s.act (.place a .residue t duty occupancy)
          s.settle a t fun rate trp => if trp ≤ rate then toInt (rate - trp) else 0
          pure (some ())
        else pure (some ())

def residueLoop (table : SatTable) : Nat → List Addr → Sched Ret
  | 0, _ => query (.error .diverges)
  | fuel + 1, given => do
      let task ← getTask
      if task.requestRate ≤ trpSlack then pure .success
      else if given = [] then pure .failure
      else
        let sim ← getSim
        let a ← query (s.chooseNode table task sim given)
        let given ← s.splitResidue table a given
        match ← s.placeResidue a with
        | none => pure .failure
        | some () => residueLoop table fuel (given.erase a)

/-- `readjust`; its callers ignore what it returns. -/
def readjust (table : SatTable) (given : List Addr) : Sched Ret := do
  let sim ← getSim
  let given := s.sortNodes sim given
  if s.useInterference then s.act .absorb else pure ()
  match ← s.saturateLoop table s.fuel given with
  | .failed => pure .failure
  | .toResidue given => s.residueLoop table s.fuel given
  | .stop => do
      let task ← getTask
      pure (if task.requestRate > trpSlack then .failure else .success)

/-! ## `mergeResidue` -/

/-- "the node is residue and has only one task", the given one. -/
def isResidueOf (id : Int) (n : Node) : Bool :=
  decide (n.occupancy < 1) && match n.vTaskList with
    | [t] => t.id == id
    | _ => false

/-- What `mergeResidue` collects: the total rate, the number of residue
nodes, and the least saturated throughput with its type and part. -/
structure Residues where
  rate : Int
  count : Nat
  minSat : Option (ℚ × DeviceType × Int)

def gatherResidues (table : SatTable) (id : Int) : List Node → Residues → Query Residues
  | [], acc => .ok acc
  | n :: ns, acc =>
      if isResidueOf id n then do
        let (sat, _) ← getMaxSaturateTrp table id n.resourcePntg n.type
        let minSat := match acc.minSat with
          | some (m, p) => if sat < m then some (sat, n.type, n.resourcePntg) else some (m, p)
          | none => some (sat, n.type, n.resourcePntg)
        let throughput := (n.vTaskList.map (·.throughput)).sum
        gatherResidues table id ns
          { rate := toInt (acc.rate + throughput), count := acc.count + 1, minSat }
      else gatherResidues table id ns acc

/-- Release and clear the residue nodes of the task. -/
def wipeResidues : List Addr → Sched Unit
  | [] => pure ()
  | a :: as => do
      let node ← getNode a
      let task ← getTask
      if isResidueOf task.id node then do
        let gpu ← getGPU a.gpu
        let used ← query (s.subtractedGPUMemUsage gpu task.id node)
        s.act (.wipe a used)
        wipeResidues as
      else wipeResidues as

/-- Put the collected rate on the first node of the chosen type and part that
takes it. -/
def replaceResidue (rate : Int) (type : DeviceType) (part : Int) : List Addr → Sched Unit
  | [] => s.act .unplaced
  | a :: as => do
      let node ← getNode a
      let task ← getTask
      let sim ← getSim
      let gpu ← getGPU a.gpu
      let memOK ← query (if s.checkMem then s.doesFitMemLimit gpu task.id node else .ok true)
      if memOK ∧ node.vTaskList = [] ∧ node.type = type ∧ node.resourcePntg = part then do
        let (batch, rate) ← query (s.getMaxBatch task.id task.SLO node sim rate true true)
        if batch = 0 then replaceResidue rate type part as
        else
          let duty ← query (fdiv (batch * 1000) rate)
          let latency ← query (s.getLatencyOn node.type task.id batch node sim)
          let occupancy ← query (fdiv latency duty)
          let trp ← query (fdiv (batch * 1000) duty)
          let left := if rate > trp then toInt (rate - trp) else 0
          s.act (.merged a (createNewTask task.id (toInt trp) task.SLO batch trp) duty occupancy left)
      else replaceResidue rate type part as

/-- "Merge Nodes that have no tasks after merging" -/
def unifyNodes : List Nat → Sched Unit
  | [] => pure ()
  | g :: gs => do
      let gpu ← getGPU g
      if gpu.vNodeList.length > 1 ∧ (gpu.vNodeList.all fun n => n.vTaskList.isEmpty) ∧
          s.useRepartition then do
        s.act (.unify g)
        unifyNodes gs
      else unifyNodes gs

def mergeResidue (table : SatTable) : Sched Ret := do
  let task ← getTask
  let sim ← getSim
  let found ← query (gatherResidues table task.id sim.nodes ⟨task.requestRate, 0, none⟩)
  let skip := if task.requestRate > trpSlack then Ret.failure else Ret.success
  match found.minSat with
  | none => pure skip
  | some (minSat, type, part) =>
      if (found.count = 1 ∧ found.rate < trpSlack) ∨ minSat < found.rate then pure skip
      else do
        s.act (.gather found.rate found.count)
        s.wipeResidues sim.addrs
        s.replaceResidue found.rate type part sim.addrs
        let task ← getTask
        if task.requestRate > trpSlack then pure .failure
        else do
          s.unifyNodes (List.range sim.vGPUList.length)
          pure .success

/-! ## `allocateTimeShare` -/

/-- `latency / duty_cycle < bound` with an `int` duty cycle that may be 0. -/
def ratioLt (latency : ℚ) (duty : Int) (bound : ℚ) : Bool :=
  if duty = 0 then decide (latency < 0) else decide (latency / duty < bound)

/-- `latency_sum / duty_cycle > 1.0`, likewise. -/
def overloaded (sum : ℚ) (duty : Int) : Bool :=
  if duty = 0 then decide (sum > 0) else decide (sum / duty > 1)

/-- Batch size, duty cycle and latency found by the search of
`allocateTimeShare`, from batch `k` down; batch 0 when none is feasible. -/
def shareSearch (task : Task) (node : Node) (sim : SimState) :
    Nat → Int × ℚ → Query (Int × Int × ℚ)
  | 0, (duty, latency) => .ok (0, duty, latency)
  | k + 1, _ => do
      let duty ← fdiv ((k + 1 : Nat) * 1000) task.requestRate
      let duty := toInt duty
      let latency ← s.getLatencyOn node.type task.id (k + 1 : Nat) node sim
      if duty + latency < task.SLO ∧ ratioLt latency duty (1 - node.occupancy) then
        return ((k + 1 : Nat), duty, latency)
      else shareSearch task node sim k (duty, latency)

/-- Latency of the co-located tasks at the new duty cycle. -/
def sharedLatency (duty : Int) (node : Node) (sim : SimState) : List Task → Query ℚ
  | [] => .ok 0
  | t :: ts => do
      let latency ← s.getLatencyOn node.type t.id (sharedBatch duty t) node sim
      let rest ← sharedLatency duty node sim ts
      return latency + rest

/-- How the task would share a node: its batch size and the new duty cycle;
`none` when the node is passed over. -/
def shareNode (task : Task) (node : Node) (sim : SimState) : Query (Option (Int × Int)) := do
  if checkContain task.id node || decide (node.occupancy ≥ 1) then return none
  else
    let bound := toInt (s.dutyOf node * (task.requestRate / 1000))
    if bound = 0 then return none
    else
      let bound := if bound > maxBatch then maxBatch else bound
      let (batch, duty, latency) ← if bound < 0 then
          .ok (bound, s.uninit.shareDuty, s.uninit.shareLatency)
        else s.shareSearch task node sim bound.toNat (s.uninit.shareDuty, s.uninit.shareLatency)
      if duty > s.dutyOf node ∨ batch = 0 then return none
      else
        let others ← s.sharedLatency duty node sim node.vTaskList
        let sum := latency + others
        if overloaded sum duty then return none
        else if (task.SLO :: node.vTaskList.map (·.SLO)).any fun slo => decide (sum + duty > slo) then
          return none
        else return some (batch, duty)

/-- One turn of the loop over the candidates: was a node found? -/
def shareFirst : List Addr → Sched Bool
  | [] => pure false
  | a :: as => do
      let node ← getNode a
      let task ← getTask
      let sim ← getSim
      match ← query (s.shareNode task node sim) with
      | none => shareFirst as
      | some (batch, duty) => do
          let period ← query (fdiv 1000 duty)
          let trp := batch * period
          let new := createNewTask task.id task.requestRate task.SLO batch trp
          let sum ← query (s.latencySum node sim (node.vTaskList.map (retime duty) ++ [new]))
          let occupancy ← query (fdiv sum duty)
          let left := if task.requestRate - trp > 0 then toInt (task.requestRate - trp) else 0
          s.act (.share a new duty occupancy left)
          s.addGPUMemUsage a
          pure true

def shareLoop (candidates : List Addr) : Nat → Sched Ret
  | 0 => query (.error .diverges)
  | fuel + 1 => do
      let task ← getTask
      if task.requestRate + task.additionalRate ≤ trpSlack then pure .success
      else
        let found ← s.shareFirst candidates
        if found then shareLoop candidates fuel else pure .failure

/-- The nodes `allocateTimeShare` considers. -/
def shareCandidates (task : Task) (sim : SimState) (tsNodes : List Node) :
    List Addr → Query (List Addr)
  | [] => .ok []
  | a :: as =>
      match sim.vGPUList[a.gpu]?, sim.node? a with
      | some gpu, some node => do
          let memOK ← if s.checkMem then s.doesFitMemLimit gpu task.id node else .ok true
          let wanted := if tsNodes.isEmpty then
              decide (node.occupancy < 1 ∧ node.vTaskList.length < s.numMaxModel)
            else tsNodes.any fun n => isSameNode node n
          let rest ← shareCandidates task sim tsNodes as
          return if memOK && wanted then a :: rest else rest
      | _, _ => .error .badAccess

/-- "Time shares nodes, if ts_node_list is not empty this function will only
consider nodes that are in the vector" -/
def allocateTimeShare (tsNodeList : List Addr) : Sched Ret := do
  let task ← getTask
  let sim ← getSim
  let tsNodes := tsNodeList.filterMap sim.node?
  let candidates ← query (s.shareCandidates task sim tsNodes sim.addrs)
  -- `cmp_nodeptr_occu_dsc`
  let candidates := s.stdSort.sort (fun a b =>
    match sim.node? a, sim.node? b with
    | some x, some y => decide (x.occupancy > y.occupancy)
    | _, _ => false) candidates
  s.shareLoop candidates (candidates.length + 1)

/-! ## One task -/

/-- Empty nodes of a decision. -/
def emptyNodes (sim : SimState) : List Addr :=
  sim.addrs.filter fun a => ((sim.node? a).map fun n => n.vTaskList.isEmpty).getD false

/-- Erase the task from every node: the nodes that are empty afterwards, and
those the task was erased from. -/
def forgetTask : List Addr → Sched (List Addr × List Addr)
  | [] => pure ([], [])
  | a :: as => do
      let node ← getNode a
      let task ← getTask
      if node.vTaskList = [] then do
        let (targets, tsTargets) ← forgetTask as
        pure (a :: targets, tsTargets)
      else do
        let found := checkContain task.id node
        if found then s.act (.forget a) else pure ()
        let node ← getNode a
        let sim ← getSim
        let sum ← query (s.latencySum node sim node.vTaskList)
        let occupancy ← query (fdiv sum (s.dutyOf node))
        s.act (.occupy a occupancy)
        let (targets, tsTargets) ← forgetTask as
        pure (if node.vTaskList = [] then a :: targets else targets,
          if found then a :: tsTargets else tsTargets)

/-- `readjust`, then `mergeResidue`, then time sharing as a last resort. -/
def adjustAndShare (table : SatTable) (given tsNodes : List Addr) : Sched Ret := do
  let _ ← s.readjust table given
  match ← s.mergeResidue table with
  | .success => pure .success
  | .failure =>
      if s.useSelfTuning then pure .failure else s.allocateTimeShare tsNodes

def addModeltoSchedule (table : SatTable) (t : Task) : Sched Ret := do
  s.act (.start t)
  let task ← getTask
  let sim ← getSim
  if isModelScheduled task sim then do
    let (targets, tsTargets) ← s.forgetTask sim.addrs
    let sim ← getSim
    s.adjustAndShare table (s.sortNodes sim targets) tsTargets
  else do
    let estimate ← query (s.getEstimate table task)
    let estimate := s.stdSort.sort cmpNodeDsc estimate
    let fit ← match ← query (s.checkFit estimate sim) with
      | .success => s.allocateFit estimate
      | .failure => pure .failure
    match fit with
    | .success => pure .success
    | .failure => do
        let sim ← getSim
        s.adjustAndShare table (s.sortNodes sim (emptyNodes sim)) []

/-! ## Sessions -/

/-- The loop of `elasticPartitioning`. Its missing final `return` is read as
EXIT_SUCCESS. -/
def placeTasks : SatTable → List Task → Sched (Ret × SatTable)
  | table, [] => pure (.success, table)
  | table, t :: ts => do
      let table ← query (match table t.id with
        | none => s.initSaturateTrp t table
        | some _ => .ok table)
      match ← s.addModeltoSchedule table t with
      | .failure => pure (.failure, table)
      | .success => placeTasks table ts

/-- `elasticPartitioning`: result, sorted session and table. -/
def elasticPartitioning (table : SatTable) (session : List Task) :
    Sched (Ret × List Task × SatTable) := do
  let session := s.stdSort.sort cmpTaskDsc session
  s.act (.pass (session.map (·.id)))
  let (ret, table) ← s.placeTasks table session
  pure (ret, session, table)

end Scheduler

/-- Total throughput of a model over all nodes of a decision. -/
def throughputOf (id : Int) (sim : SimState) : ℚ :=
  (((sim.nodes.flatMap (·.vTaskList)).filter fun t => t.id == id).map (·.throughput)).sum

/-- `task_to_org_rate_mapping[id]`: the last task with the id wins. -/
def orgRate (session : List Task) (id : Int) : Int :=
  ((session.reverse.find? fun t => t.id == id).map (·.requestRate)).getD 0

/-- Does a task fall short of INTF_THRESHOLD? -/
def fallsShort (session : List Task) (sim : SimState) (t : Task) : Bool :=
  decide (throughputOf t.id sim < orgRate session t.id * (85 / 100))

namespace Scheduler

variable (s : Scheduler)

/-- The tasks to be tried again, in session order; `none` when one of them
was tried again before. -/
def retryTasks (short : Task → Bool) (org : Int → Int) (flagged : List Int) :
    List Task → Option (List Task)
  | [] => some []
  | t :: ts =>
      if short t then
        if t.id ∈ flagged then none
        else (retryTasks short org (t.id :: flagged) ts).map
          (createNewTask t.id (org t.id) t.SLO 0 0 :: ·)
      else retryTasks short org flagged ts

/-- `incrementalScehduling`'s loop: result, session and table. Tasks are tried
again at most once, so three turns are enough. -/
def passLoop : Nat → SatTable → List Int → List Task → Sched (Ret × List Task × SatTable)
  | 0, _, _, _ => query (.error .diverges)
  | fuel + 1, table, flagged, session => do
      let (ret, sorted, table) ← s.elasticPartitioning table session
      match ret with
      | .failure => pure (.failure, sorted, table)
      | .success =>
          if s.useInterference then do
            let sim ← getSim
            match retryTasks (fallsShort session sim) (orgRate session) flagged sorted with
            | none => pure (.failure, sorted, table)
            | some [] => pure (.success, [], table)
            | some again => passLoop fuel table (again.map (·.id) ++ flagged) again
          else pure (.success, sorted, table)

def incrementalScehduling (table : SatTable) (session : List Task) :
    Sched (Ret × List Task × SatTable) := do
  let sim ← getSim
  if sim.vGPUList = [] then
    s.act (.initDevs (s.initiateDevs sim s.numMaxGPU).vGPUList)
  else pure ()
  s.passLoop 3 table [] session

end Scheduler

/-! ## `runScheduling` -/

/-- What a call of `runScheduling` leaves behind: its result, the task list,
the saturation tables, both decisions, and the recorded writes. -/
structure Outcome where
  ret : Ret
  tasks : List Task
  table : SatTable
  prev : SimState
  out : SimState
  log : List (Core × Action)

/-- A decision before anything is recorded. -/
def Core.init (sim : SimState) : Core :=
  { sim, task := Scheduler.createNewTask 0 0 0 0 0, pending := none, uncharged := none,
    unchecked := none, phase := .placing, session := [] }

namespace Scheduler

variable (s : Scheduler)

/-- `setMaxGPUs`. -/
def setMaxGPUs (n : Int) : Scheduler := { s with numMaxGPU := n }

/-- `_useRepartition` for one call. -/
def withRepart (allowRepart : Bool) : Scheduler := { s with useRepartition := allowRepart }

def runScheduling (table : SatTable) (tasks : List Task) (prev out : SimState)
    (allowRepart : Bool) : Query Outcome := do
  let s := s.withRepart allowRepart
  let ((ret, tasks, table), r) ← s.incrementalScehduling table tasks ⟨Core.init prev, []⟩
  match ret with
  | .failure => return ⟨.failure, tasks, table, r.cur.sim, out, r.log⟩
  | .success =>
      let ((), r) ← s.act .markLoaded r
      return ⟨.success, tasks, table, r.cur.sim, (copyToOutput s r.cur.sim).2, r.log⟩

end Scheduler

end Glet
