import Glet.Fit
import Glet.Recorder

/-!
# The writes of the scheduler

Every write a scheduling run makes to the decision or to the task at hand
is an `Action`, performed through the recorder. The actions are the
source's own statements, grouped where the source writes several fields of
one node together; `Action.apply` says what each of them does.

`Core` is what they act on: the decision, the task being scheduled, and
ghost fields that say what the current routine is in the middle of. The
ghost fields are never read by the program:

- `pending`: a gpu-let was placed and its throughput has not been taken
  off the request rate yet;
- `uncharged`: a gpu-let was placed and its memory has not been accounted;
- `unchecked`: a gpu-let was placed by `readjust` and its bandwidth test is
  still to come;
- `phase`: how far the current task is;
- `session`: the ids of the tasks of the current pass.
-/

namespace Glet

open Recorder

/-- How far a task is: its rate is being placed; `mergeResidue` is moving
`count` residue gpu-lets of total rate `rate`; `allocateFit` or
`mergeResidue` is done with it. -/
inductive Phase where
  | placing
  | moving (rate : Int) (count : Nat)
  | done
  deriving DecidableEq

structure Core where
  sim : SimState
  task : Task
  pending : Option Addr
  uncharged : Option Addr
  unchecked : Option Addr
  phase : Phase
  session : List Int

/-- Which loop of `readjust` places a gpu-let. -/
inductive Kind where
  | saturated
  | residue
  deriving DecidableEq

inductive Action where
  /-- `initiateDevs` on an empty decision. -/
  | initDevs (gpus : List GPU)
  /-- A pass over the session begins. -/
  | pass (ids : List Int)
  /-- `addModeltoSchedule` starts on a task. -/
  | start (t : Task)
  /-- The task's entry is erased from a node (previously scheduled branch). -/
  | forget (a : Addr)
  /-- `occupancy` is recomputed. -/
  | occupy (a : Addr) (occupancy : ℚ)
  /-- A whole GPU's node is split into `part` and the rest. -/
  | split (a : Addr) (part : Int)
  /-- `copyToNode` of an estimated gpu-let. `checked`: `findBestFit` tested
  this gpu-let on the partition it now gets. -/
  | fit (a : Addr) (n : Node) (checked : Bool)
  /-- `readjust` writes duty cycle and occupancy of an empty node. -/
  | prime (a : Addr) (duty occupancy : ℚ)
  /-- `readjust` puts the task on a node. -/
  | place (a : Addr) (kind : Kind) (t : Task) (duty occupancy : ℚ)
  /-- The bandwidth test of `checkNeedtoRevert` passed. -/
  | bandwidthOK (a : Addr)
  /-- `revertNode`. -/
  | revert (a : Addr)
  /-- The throughput of a placed gpu-let is taken off the request rate. -/
  | accept (a : Addr) (rate : Int)
  /-- `request_rate += additional_rate; additional_rate = 0`. -/
  | absorb
  /-- `getMaxBatch` left this rate in its reference parameter. -/
  | rerate (rate : Int)
  /-- `additional_rate += rate`. -/
  | addRate (rate : Int)
  /-- `adjustSatNode` or `adjustResNode` rewrites a node. -/
  | adjust (a : Addr) (n : Node)
  /-- `mergeResidue` found this total rate on this many residue nodes. -/
  | gather (rate : Int) (count : Nat)
  /-- `mergeResidue` clears a residue node; its GPU now uses `used` memory. -/
  | wipe (a : Addr) (used : Int)
  /-- `mergeResidue` places the merged gpu-let. -/
  | merged (a : Addr) (t : Task) (duty occupancy : ℚ) (rate : Int)
  /-- `mergeResidue` found no node for what it cleared. -/
  | unplaced
  /-- The empty nodes of a GPU become one node again. -/
  | unify (g : Nat)
  /-- `allocateTimeShare` adds the task to a node and re-times the others. -/
  | share (a : Addr) (t : Task) (duty : Int) (occupancy : ℚ) (rate : Int)
  /-- `addGPUMemUsage` charges a GPU and marks a part as loaded. -/
  | charge (a : Addr) (g : Nat) (used : Int) (m : MemNode)
  /-- `addGPUMemUsage` leaves the GPU as it is. -/
  | skipCharge (a : Addr)
  /-- `allocateFit` is done with the task: `request_rate = 0`. -/
  | finish
  /-- `allocateFit` gives up on a gpu-let it has placed. -/
  | leave
  /-- `copyToOutput` marks the parts in use as loaded. -/
  | markLoaded

/-- `copyToNode`. -/
def copyToNode (org dst : Node) (enableRepart : Bool) : Node :=
  { dst with
    occupancy := org.occupancy
    resourcePntg := if enableRepart then org.resourcePntg else dst.resourcePntg
    dutyCycle := org.dutyCycle
    vTaskList := org.vTaskList
    reserved := org.reserved }

/-- Batch size of a co-located task for a new duty cycle, before the limits:
`int(duty_cycle / (1000.0 / request_rate))`, at least 1 if that is 0. -/
def sharedBatch (duty : Int) (t : Task) : Int :=
  let batch := toInt (duty * t.requestRate / 1000)
  if batch = 0 then 1 else batch

/-- A co-located task after `allocateTimeShare` changed the duty cycle. -/
def retime (duty : Int) (t : Task) : Task :=
  let batch := min (sharedBatch duty t) maxBatch
  { t with batchSize := batch, throughput := batch * 1000 / duty }

/-- The rest of a GPU when a whole node is split. -/
def restNode (n : Node) (part : Int) : Node :=
  { Scheduler.makeEmptyNode n.id (100 - part) n.type with
    dedupNum := if part = 50 then 1 else 0 }

/-- The node left by the merge of a GPU's empty nodes. -/
def unifyGPU (g : GPU) : GPU :=
  { g with vNodeList := (g.vNodeList.take 1).map fun n =>
      { n with dedupNum := 0, resourcePntg := 100 } }

namespace Core

/-- Rewrite one node. -/
def write (c : Core) (a : Addr) (f : Node → Node) : Core :=
  match c.sim.node? a with
  | some n => { c with sim := c.sim.setNode a (f n) }
  | none => c

def setRate (c : Core) (rate : Int) : Core :=
  { c with task := { c.task with requestRate := rate } }

end Core

namespace Action

/-- What each action does; `repart` is `_useRepartition`. -/
def apply (repart : Bool) : Action → Core → Core
  | initDevs gpus, c => { c with sim := { c.sim with vGPUList := gpus } }
  | pass ids, c => { c with session := ids }
  | start t, c => { c with task := { t with additionalRate := 0 }, phase := .placing }
  | forget a, c => c.write a fun n =>
      { n with vTaskList := n.vTaskList.eraseP fun t => t.id == c.task.id }
  | occupy a occupancy, c => c.write a fun n => { n with occupancy }
  | split a part, c =>
      match c.sim.node? a with
      | some n =>
          let sim := c.sim.setNode a { n with resourcePntg := part }
          { c with sim := sim.pushNode n.id (restNode n part) }
      | none => c
  | fit a org _, c =>
      let c := c.write a fun n => copyToNode org n repart
      { c with pending := some a, uncharged := some a }
  | prime a duty occupancy, c => c.write a fun n => { n with dutyCycle := some duty, occupancy }
  | place a _ t duty occupancy, c =>
      let c := c.write a fun n =>
        { n with vTaskList := n.vTaskList ++ [t], dutyCycle := some duty, occupancy }
      { c with pending := some a, uncharged := some a, unchecked := some a }
  | bandwidthOK _, c => { c with unchecked := none }
  | revert a, c =>
      let c := c.write a fun n => { n with vTaskList := [], dutyCycle := some 0, occupancy := 0 }
      { c with pending := none, uncharged := none, unchecked := none }
  | accept _ rate, c =>
      let c := c.setRate rate
      { c with pending := none, unchecked := none }
  | absorb, c =>
      { c with task := { c.task with
          requestRate := c.task.requestRate + c.task.additionalRate, additionalRate := 0 } }
  | rerate rate, c => c.setRate rate
  | addRate rate, c =>
      { c with task := { c.task with additionalRate := c.task.additionalRate + rate } }
  | adjust a n', c => c.write a fun _ => n'
  | gather rate count, c => { c with phase := .moving rate count }
  | wipe a used, c =>
      let c := c.write a fun n => { n with vTaskList := [], dutyCycle := some 0, occupancy := 0 }
      { c with sim := c.sim.modifyGPU a.gpu fun g => { g with usedMemory := used } }
  | merged a t duty occupancy rate, c =>
      let c := c.write a fun n =>
        { n with vTaskList := n.vTaskList ++ [t], dutyCycle := some duty, occupancy }
      { c.setRate rate with phase := .done }
  | unplaced, c => { c with phase := .done }
  | unify g, c => { c with sim := c.sim.modifyGPU g unifyGPU }
  | share a t duty occupancy rate, c =>
      let c := c.write a fun n =>
        { n with
          vTaskList := n.vTaskList.map (retime duty) ++ [t]
          dutyCycle := some (duty : ℚ), occupancy }
      { c.setRate rate with uncharged := some a }
  | charge _ g used m, c =>
      let sim := c.sim.modifyGPU g fun gpu =>
        { gpu with usedMemory := used, vLoadedParts := gpu.vLoadedParts ++ [m] }
      { c with sim, uncharged := none }
  | skipCharge _, c => { c with uncharged := none }
  | finish, c => { c.setRate 0 with phase := .done }
  | leave, c => { c with pending := none, uncharged := none }
  | markLoaded, c =>
      { c with sim := { c.sim with vGPUList := c.sim.vGPUList.map markLoadedParts } }

end Action

end Glet
