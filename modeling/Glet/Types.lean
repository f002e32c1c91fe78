import Mathlib.Data.Rat.Floor
import Mathlib.Data.List.Sort
import Mathlib.Tactic.Linarith

/-!
# The scheduler's data model

The records of `scheduler_base.h` and the members of the scheduler object
that the scheduling routines read. Floats are exact rationals; where the
source converts a float to an `int` the model applies `toInt`, truncation
toward zero.

Three things the C++ leaves open are parameters of the model rather than
choices made here:

- `StdSort`: `std::sort` returns a sorted permutation, in no particular
  order among equivalent elements;
- `Uninit`: the value read from a local or a field that was never assigned;
- `Scheduler.fuel`: how often the two loops of `readjust` may turn before
  the model gives up (`Fault.diverges`).

A node is named by its position (`Addr`) where the source holds a
`NodePtr`: nodes of a decision are only ever appended, or dropped when a
GPU is merged back into one node, so a position keeps naming one node.
-/

namespace Glet

/-! ## Numbers -/

/-- Conversion of a float to an `int`: truncation toward zero. -/
def toInt (q : ℚ) : Int := q.num.tdiv q.den

theorem toInt_of_nonneg {q : ℚ} (h : 0 ≤ q) : toInt q = ⌊q⌋ := by
  have hn : 0 ≤ q.num := Rat.num_nonneg.mpr h
  rw [toInt, Rat.floor_def', Int.tdiv_eq_ediv_of_nonneg hn]

theorem toInt_of_neg {q : ℚ} (h : q < 0) : toInt q = ⌈q⌉ := by
  have hneg : toInt q = -toInt (-q) := by
    simp only [toInt, Rat.num_neg_eq_neg_num, Rat.den_neg_eq_den, Int.neg_tdiv, neg_neg]
  rw [hneg, toInt_of_nonneg (by linarith), Int.floor_neg, neg_neg]

theorem floor_le_toInt (q : ℚ) : ⌊q⌋ ≤ toInt q := by
  rcases le_or_gt 0 q with h | h
  · exact le_of_eq (toInt_of_nonneg h).symm
  · rw [toInt_of_neg h]
    exact Int.floor_le_ceil q

@[simp] theorem toInt_intCast (z : Int) : toInt (z : ℚ) = z := by
  simp [toInt]

/-! ## Records -/

/-- The models of `_IDtoModelName`. -/
inductive Model where
  | lenet1 | lenet2 | lenet3 | lenet4 | lenet5 | lenet6 | googlenet
  | resnet50 | ssdMobilenetv1 | vgg16 | mnasnet1_0 | mobilenet_v2
  | densenet161 | bert
  deriving DecidableEq

abbrev DeviceType := String

/-- One model to be scheduled, or its share of one node. -/
structure Task where
  id : Int
  requestRate : Int
  additionalRate : Int
  SLO : Int
  batchSize : Int
  throughput : ℚ
  deriving DecidableEq

/-- A partition on which something was loaded. -/
structure MemNode where
  part : Int
  dedupNum : Int
  deriving DecidableEq

/-- A gpu-let. `dutyCycle` is `none` until a routine assigns it. -/
structure Node where
  vTaskList : List Task
  dutyCycle : Option ℚ
  occupancy : ℚ
  resourcePntg : Int
  id : Nat
  reserved : Bool
  dedupNum : Int
  type : DeviceType
  deriving DecidableEq

structure GPU where
  GPUID : Nat
  totalMemory : Int
  usedMemory : Int
  TYPE : DeviceType
  vLoadedParts : List MemNode
  vNodeList : List Node
  deriving DecidableEq

structure SimState where
  vGPUList : List GPU
  parts : List Int
  deriving DecidableEq

/-- One row of a model's saturation table. -/
structure SatTrpEntry where
  part : Int
  maxBatch : Int
  satTrp : ℚ
  type : DeviceType
  deriving DecidableEq

/-- `_perModelSatTable`. -/
abbrev SatTable := Int → Option (List SatTrpEntry)

/-- EXIT_SUCCESS and EXIT_FAILURE. -/
inductive Ret where
  | success
  | failure
  deriving DecidableEq

/-- How a run can stop without returning: a failed assertion, a saturation
table without the row that is looked up (an assertion, too), a missing
table or an index out of range, a latency query outside the profile, a
float division by zero whose result is stored, an endless loop. -/
inductive Fault where
  | assertion
  | notFound
  | badAccess
  | badQuery
  | nonFinite
  | diverges
  deriving DecidableEq

/-- Computations that read the scheduler's state and may stop. -/
abbrev Query := Except Fault

def assert (p : Prop) [Decidable p] : Query Unit :=
  if p then .ok () else .error .assertion

/-- Float division whose result is stored. -/
def fdiv (a b : ℚ) : Query ℚ :=
  if b = 0 then .error .nonFinite else .ok (a / b)

/-- The address of a node of a decision: GPU index and node index. -/
structure Addr where
  gpu : Nat
  node : Nat
  deriving DecidableEq

/-! ## Decisions and their nodes -/

namespace SimState

def node? (sim : SimState) (a : Addr) : Option Node :=
  (sim.vGPUList[a.gpu]?).bind fun g => g.vNodeList[a.node]?

def modifyGPU (sim : SimState) (i : Nat) (f : GPU → GPU) : SimState :=
  { sim with vGPUList := sim.vGPUList.modify i f }

def setNode (sim : SimState) (a : Addr) (n : Node) : SimState :=
  sim.modifyGPU a.gpu fun g => { g with vNodeList := g.vNodeList.set a.node n }

def pushNode (sim : SimState) (i : Nat) (n : Node) : SimState :=
  sim.modifyGPU i fun g => { g with vNodeList := g.vNodeList ++ [n] }

/-- All node addresses, in the order the source's nested loops visit them. -/
def addrs (sim : SimState) : List Addr :=
  sim.vGPUList.zipIdx.flatMap fun (g, i) =>
    (List.range g.vNodeList.length).map fun j => ⟨i, j⟩

def nodes (sim : SimState) : List Node :=
  sim.vGPUList.flatMap (·.vNodeList)

end SimState

/-! ## Parameters of the model -/

/-- A strict weak ordering, as `std::sort` asks of its comparator. -/
structure StrictWeakOrder {α : Type} (lt : α → α → Bool) : Prop where
  irrefl : ∀ a, lt a a = false
  trans : ∀ a b c, lt a b = true → lt b c = true → lt a c = true
  incomp : ∀ a b c, lt a b = false → lt b c = false → lt a c = false

/-- `std::sort`. -/
structure StdSort where
  sort : {α : Type} → (α → α → Bool) → List α → List α
  perm : ∀ {α : Type} (lt : α → α → Bool) (l : List α), (sort lt l).Perm l
  sorted : ∀ {α : Type} (lt : α → α → Bool) (l : List α), StrictWeakOrder lt →
    (sort lt l).Pairwise fun a b => lt b a = false

/-- Insertion sort, which `std::sort` is on short ranges. -/
def StdSort.insertion : StdSort where
  sort := fun lt l => l.insertionSort fun a b => lt b a = false
  perm := fun _ l => List.perm_insertionSort _ l
  sorted := fun lt l h => by
    have hasymm : ∀ a b, lt a b = true → lt b a = false := by
      intro a b hab
      by_contra hba
      have haa := h.trans a b a hab (by simpa using hba)
      rw [h.irrefl a] at haa
      cases haa
    have : Std.Total fun a b => lt b a = false := ⟨fun a b => by
      cases hba : lt b a with
      | false => exact Or.inl rfl
      | true => exact Or.inr (hasymm b a hba)⟩
    have : IsTrans _ fun a b => lt b a = false := ⟨fun a b c hab hbc => h.incomp c b a hbc hab⟩
    exact List.pairwise_insertionSort _ l

/-- Values of variables that are read before anything is assigned to them:
the duty cycle of a new node, `estimateTrp`'s `max_batch` when `getMinPart`
finds none, `allocateTimeShare`'s `duty_cycle` and `latency` when its search
does not start, the memory fields of a new GPU, and the `additional_rate` of a
copied task. -/
structure Uninit where
  duty : Node → ℚ
  estimateBatch : Int
  shareDuty : Int
  shareLatency : ℚ
  memory : Int
  additionalRate : Int

/-- `DevPerfModel`: `none` where the latency model has no answer. -/
structure DevPerfModel where
  getLatency : Model → Int → Int → Option ℚ
  getInterference : Model → Int → Int → Model → Int → Int → ℚ
  getDevMem : Nat

/-- The members of the scheduler object that its routines read. The flags
`checkMem` and `checkNetBW` are the build definitions CHECK_MEM and
CHECK_NETBW; `setupScheduler` asserts that the latency ratio is at least 1. -/
structure Scheduler where
  numMaxGPU : Int
  numMaxModel : Nat
  usePart : Bool
  latencyRatio : ℚ
  latencyRatio_ge : 1 ≤ latencyRatio
  useBatchingOverhead : Bool
  useInterference : Bool
  useSelfTuning : Bool
  useRepartition : Bool
  availParts : List Int
  mapModelIDtoMemSize : Int → Int
  nametoDevPerfModelTable : DeviceType → DevPerfModel
  typeToNumofTypeTable : List (DeviceType × Int)
  batchLatency_3_224_224 : Int → ℚ
  batchLatency_3_300_300 : Int → ℚ
  priorityCheck : Bool
  priorityType : DeviceType
  checkMem : Bool
  checkNetBW : Bool
  isNLCInitated : Bool
  taskIDtoRequiredBytesPerRequest : Int → Int
  stdSort : StdSort
  uninit : Uninit
  fuel : Nat

/-- TRP_SLACK. -/
def trpSlack : Int := 15

/-- `_MAX_BATCH`. -/
def maxBatch : Int := 32

/-- `_DEFAULT_PYTORCH_MEM_USAGE`. -/
def defaultPytorchMemUsage : Int := 1230

/-- `_MEM_ROOM`. -/
def memRoom : ℚ := 9 / 10

/-- `_LIMIT_GBITS`. -/
def limitGbits : ℚ := 3

end Glet
