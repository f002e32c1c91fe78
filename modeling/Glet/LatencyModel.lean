import Glet.Latency

/-!
# `LatencyModel`

The profile of a device type, `latency_model.cpp`: latencies by batch size and
partition, interpolated where none was measured. The tables are read with
`operator[]`, so a lookup may write: a key that is missing is put in, with
latency 0.

The functions on one model's table take it and return what they leave of it;
`LatencyModel.getLatency` puts it back. `_perModelGPURatioTable`, which only
`getGPURatio` reads, is left out, and the profile comes as rows, not as text.
-/

namespace Glet

/-- A line of the profile: "model,part,batch,latency". -/
structure ProfileRow where
  model : String
  part : Int
  batch : Int
  latency : ℚ

/-! ## `std::unordered_map<int,float>` -/

/-- One entry for each key. -/
abbrev LatencyTable := List (Int × ℚ)

namespace LatencyTable

/-- Assignment to `operator[]`. -/
def assign (t : LatencyTable) (key : Int) (latency : ℚ) : LatencyTable :=
  (key, latency) :: t.filter fun e => e.1 != key

/-- `operator[]`. -/
def subscript (t : LatencyTable) (key : Int) : ℚ × LatencyTable :=
  match t.lookup key with
  | some latency => (latency, t)
  | none => (0, (key, 0) :: t)

end LatencyTable

/-! ## Keys -/

/-- "acts like an hash key" -/
def makeKey (batch part : Int) : Int := batch * 1000 + part

/-- Batch size and part of a key. -/
def parseKey (key : Int) : Int × Int := (key.tdiv 1000, key.tmod 1000)

/-! ## Interpolation -/

/-- `findBatchpair`: the next batch size of the list from `batch` downwards, and
the next one above it. The search for one that does not exist never ends. -/
def findBatchpair (list : List Int) (batch : Int) : Query (Int × Int) := do
  assert (1 < batch ∧ batch < maxBatch)
  match (list.filter fun b => b ≤ batch).max?, (list.filter fun b => batch < b).min? with
  | some lower, some upper => return (lower, upper)
  | _, _ => .error .diverges

/-- `getBatchInterpolatedLatency`, with `_perModelBatchVec[model]`. -/
def getBatchInterpolatedLatency (batchVec : Int → List Int) (t : LatencyTable) (batch part : Int) :
    Query (ℚ × LatencyTable) :=
  -- if batch is in the table, lookup and return
  if batch = 1 ∨ batch = maxBatch then .ok (t.subscript (makeKey batch part))
  else do
    let (b1, b2) ← findBatchpair (batchVec part) batch
    let (l1, t) := t.subscript (makeKey b1 part)
    let (l2, t) := t.subscript (makeKey b2 part)
    assert (l1 ≠ 0 ∧ l2 ≠ 0)
    let slope ← fdiv (l2 - l1) (b2 - b1)
    return (slope * (batch - b1) + l1, t)

/-- The parts of the smallest and of the largest key. -/
def endParts (t : LatencyTable) : Query (Int × Int) := do
  let keys := t.map Prod.fst
  assert (2 ≤ keys.length)
  match keys.min?, keys.max? with
  | some front, some back => return ((parseKey front).2, (parseKey back).2)
  | _, _ => .error .badAccess

/-- `getBatchPartInterpolatedLatency`. -/
def getBatchPartInterpolatedLatency (batchVec : Int → List Int) (t : LatencyTable)
    (batch part : Int) : Query (ℚ × LatencyTable) := do
  let (minPart, maxPart) ← endParts t
  -- "assume that every part has max batch size profiled"
  let (y1, t) ← getBatchInterpolatedLatency batchVec t maxBatch minPart
  let (y, t) ← getBatchInterpolatedLatency batchVec t maxBatch part
  let (y2, t) ← getBatchInterpolatedLatency batchVec t maxBatch maxPart
  let b ← fdiv (y - y2) (y1 - y2)
  let (y1, t) ← getBatchInterpolatedLatency batchVec t batch minPart
  let (y2, t) ← getBatchInterpolatedLatency batchVec t batch maxPart
  return ((y1 - y2) * b + y2, t)

/-- `getLatency` on the table of its model. -/
def tableLatency (batchVec : Int → List Int) (t : LatencyTable) (batch part : Int) :
    Query (ℚ × LatencyTable) :=
  match t.lookup (makeKey batch part) with
  | none => getBatchPartInterpolatedLatency batchVec t batch part
  | some _ => getBatchInterpolatedLatency batchVec t batch part

/-! ## The class -/

structure LatencyModel where
  perModelLatencyTable : String → Option LatencyTable
  perModelBatchVec : String → Int → List Int

namespace LatencyModel

def empty : LatencyModel := ⟨fun _ => none, fun _ _ => []⟩

/-- One line of `setupTable`. -/
def addRow (m : LatencyModel) (row : ProfileRow) : LatencyModel where
  perModelLatencyTable model :=
    if model = row.model then
      some (((m.perModelLatencyTable model).getD []).assign (makeKey row.batch row.part) row.latency)
    else m.perModelLatencyTable model
  perModelBatchVec model part :=
    if model = row.model ∧ part = row.part then m.perModelBatchVec model part ++ [row.batch]
    else m.perModelBatchVec model part

def setupTable (m : LatencyModel) (rows : List ProfileRow) : LatencyModel := rows.foldl addRow m

/-- All of lenet share a profile. -/
def profileName (model : String) : String :=
  if model ∈ ["lenet1", "lenet2", "lenet3", "lenet4", "lenet5", "lenet6"] then "lenet1" else model

/-- The latency, and the tables afterwards. -/
def getLatency (m : LatencyModel) (model : String) (batch part : Int) :
    Query (ℚ × LatencyModel) := do
  assert (1 ≤ batch ∧ batch ≤ maxBatch)
  let model := profileName model
  match m.perModelLatencyTable model with
  | none => return (0, m)
  | some t => do
      let (latency, t) ← tableLatency (m.perModelBatchVec model) t batch part
      return (latency, { m with
        perModelLatencyTable := fun name =>
          if name = model then some t else m.perModelLatencyTable name })

end LatencyModel

end Glet
