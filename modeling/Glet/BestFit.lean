import Glet.Placing
import Glet.Reach
import Glet.LastMin

/-!
# What `findBestFit` and `checkForInterference` answer

`findBestFit` keeps a running minimum that a 100% node resets to zero; that is
a scan for the last node of least rank (`bestFitRank`) among the eligible ones
(`findBestFit_eq`). Its specification is read off there.
-/

namespace Glet

open LastMin

namespace Scheduler

variable {s : Scheduler} {sim : SimState} {input node : Node} {task : Task} {exclude : List Addr}
  {a : Addr}

/-! ## The search -/

/-- The size of the node at an address. -/
def partAt (sim : SimState) (a : Addr) : Int := ((sim.node? a).map (·.resourcePntg)).getD 0

/-- What `findBestFit` compares: the room left, and nothing for a 100% node
when partitioning is on. -/
def bestFitRank (s : Scheduler) (sim : SimState) (input : Node) (a : Addr) : Int :=
  if partAt sim a = 100 ∧ s.usePart then 0 else partAt sim a - input.resourcePntg

/-- What the loop of `findBestFit` finds out about one address. -/
def tryNode (s : Scheduler) (sim : SimState) (input : Node) (exclude : List Addr) (a : Addr) :
    Query Bool :=
  match sim.vGPUList[a.gpu]?, sim.node? a with
  | some gpu, some node =>
      if gpu.TYPE ≠ input.type ∨ node.resourcePntg < input.resourcePntg ∨
          node.vTaskList ≠ [] ∨ a ∈ exclude then .ok false
      else match input.vTaskList with
        | [task] => s.fitsNode sim input task gpu node
        | _ => .error .assertion
  | _, _ => .error .badAccess

/-- The addresses that pass, in the order of the search. -/
def fitting (s : Scheduler) (sim : SimState) (input : Node) (exclude : List Addr)
    (as : List Addr) : List Addr :=
  as.filter fun a => (s.tryNode sim input exclude a).returns id

theorem tryNode_part {b : Bool} (h : s.tryNode sim input exclude a = .ok b) :
    b = true → input.resourcePntg ≤ partAt sim a := by
  rintro rfl
  unfold tryNode at h
  split at h
  case h_2 => cases h
  case h_1 gpu node _ hnode =>
    split at h
    case isTrue => cases h
    case isFalse hskip =>
      simp only [not_or, not_lt] at hskip
      simpa [partAt, hnode] using hskip.2.1

/-- The override for 100% nodes is a comparison of ranks. -/
theorem rank_step {β : Type} {f : Int × Option Addr → β} {usePart : Bool} {size part minDiff : Int}
    {best : Option Addr} (hle : size ≤ part) (hmin : 0 ≤ minDiff) :
    (if (if part = 100 ∧ usePart = true then 0 else minDiff) ≥ part - size then
        f (part - size, some a)
      else f (if part = 100 ∧ usePart = true then 0 else minDiff,
        if part = 100 ∧ usePart = true then some a else best)) =
      f (if (if part = 100 ∧ usePart = true then 0 else part - size) ≤ minDiff then
          (if part = 100 ∧ usePart = true then 0 else part - size, some a)
        else (minDiff, best)) := by
  by_cases hfirst : part = 100 ∧ usePart = true
  · simp only [if_pos hfirst, if_pos hmin]
    split
    case isTrue hzero =>
      rw [show part - size = 0 by omega]
    case isFalse => rfl
  · simp only [if_neg hfirst]
    split <;> rfl

/-- One turn of the loop: what passes replaces a best that ranks no lower. -/
theorem bestFitLoop_cons {as : List Addr} {acc : Int × Option Addr} (hacc : 0 ≤ acc.1) :
    s.bestFitLoop sim input exclude (a :: as) acc =
      s.tryNode sim input exclude a >>= fun ok =>
        s.bestFitLoop sim input exclude as
          (if ok ∧ s.bestFitRank sim input a ≤ acc.1 then (s.bestFitRank sim input a, some a)
            else acc) := by
  obtain ⟨minDiff, best⟩ := acc
  simp only [bestFitLoop, tryNode]
  cases hgpu : sim.vGPUList[a.gpu]? with
  | none => rfl
  | some gpu =>
      cases hnode : sim.node? a with
      | none => rfl
      | some node =>
          simp only
          by_cases hskip : gpu.TYPE ≠ input.type ∨ node.resourcePntg < input.resourcePntg ∨
              node.vTaskList ≠ [] ∨ a ∈ exclude
          · rw [if_pos hskip, if_pos hskip]
            simp [bind, Except.bind]
          · rw [if_neg hskip, if_neg hskip]
            simp only [not_or, not_lt] at hskip
            have hpart : partAt sim a = node.resourcePntg := by simp [partAt, hnode]
            rcases hlist : input.vTaskList with _ | ⟨task, _ | ⟨_, _⟩⟩
            · rfl
            · simp only
              cases hfit : s.fitsNode sim input task gpu node with
              | error e => rfl
              | ok ok =>
                  simp only [bind, Except.bind, bestFitRank, hpart]
                  cases ok with
                  | false => simp
                  | true =>
                      simp only [if_true, true_and]
                      exact rank_step hskip.2.1 hacc
            · rfl

theorem mem_fitting {as : List Addr} :
    a ∈ s.fitting sim input exclude as ↔ a ∈ as ∧ s.tryNode sim input exclude a = .ok true := by
  rw [fitting, List.mem_filter]
  refine and_congr_right fun _ => ?_
  cases s.tryNode sim input exclude a with
  | error e => simp [Query.returns]
  | ok ok => simp [Query.returns]

theorem bestFitRank_nonneg (h : s.tryNode sim input exclude a = .ok true) :
    0 ≤ s.bestFitRank sim input a := by
  have hle := tryNode_part h rfl
  unfold bestFitRank
  split <;> omega

/-- The loop is a scan for the last address of least rank among those that
pass. -/
theorem bestFitLoop_eq {as : List Addr} {acc r : Int × Option Addr} (hacc : 0 ≤ acc.1)
    (h : s.bestFitLoop sim input exclude as acc = .ok r) :
    r = scan (s.bestFitRank sim input) (s.fitting sim input exclude as) acc := by
  induction as generalizing acc with
  | nil => exact (Except.ok.inj h).symm
  | cons a as ih =>
      rw [bestFitLoop_cons hacc] at h
      obtain ⟨ok, hok, h⟩ := Query.bind_ok.mp h
      rw [fitting, List.filter_cons, hok]
      cases ok with
      | false =>
          simp only [Bool.false_eq_true, false_and, if_false] at h
          exact ih hacc h
      | true =>
          simp only [true_and] at h
          refine ih ?_ h
          split
          · exact bestFitRank_nonneg hok
          · exact hacc

/-- The search returns if every test it makes does. -/
theorem bestFitLoop_total {as : List Addr} {acc : Int × Option Addr} (hacc : 0 ≤ acc.1)
    (hall : ∀ a ∈ as, ∃ ok, s.tryNode sim input exclude a = .ok ok) :
    ∃ r, s.bestFitLoop sim input exclude as acc = .ok r := by
  induction as generalizing acc with
  | nil => exact ⟨acc, rfl⟩
  | cons a as ih =>
      obtain ⟨ok, hok⟩ := hall a (List.mem_cons_self ..)
      rw [bestFitLoop_cons hacc, hok]
      refine ih ?_ fun b hb => hall b (List.mem_cons_of_mem a hb)
      split
      case isTrue hcond =>
        rw [hcond.1] at hok
        exact bestFitRank_nonneg hok
      case isFalse => exact hacc

theorem findBestFit_total (hall : ∀ a ∈ sim.addrs, ∃ ok, s.tryNode sim input exclude a = .ok ok) :
    ∃ r, s.findBestFit sim input exclude = .ok r := by
  obtain ⟨r, hr⟩ : ∃ r, s.bestFitLoop sim input exclude sim.addrs (200, none) = .ok r :=
    bestFitLoop_total (by decide) hall
  rw [findBestFit, hr]
  exact ⟨_, rfl⟩

/-- Sizes the sentinel 200 is out of the reach of. -/
structure Sizes (sim : SimState) (input : Node) : Prop where
  nodes : ∀ n ∈ sim.nodes, 1 ≤ n.resourcePntg ∧ n.resourcePntg ≤ 100
  input_gt : -100 < input.resourcePntg

theorem Sizes.rank_lt (h : Sizes sim input) (ha : a ∈ sim.addrs) :
    s.bestFitRank sim input a < 200 := by
  obtain ⟨n, hn⟩ := SimState.mem_addrs.mp ha
  have hpart : partAt sim a = n.resourcePntg := by simp [partAt, hn]
  have hle := (h.nodes n (SimState.mem_nodes.mpr ⟨a, hn⟩)).2
  have hin := h.input_gt
  rw [bestFitRank, hpart]
  split <;> omega

/-- `findBestFit` returns the last address of least rank. -/
theorem findBestFit_eq {r : Option Addr} (hsizes : Sizes sim input)
    (h : s.findBestFit sim input exclude = .ok r) :
    r = lastMin (s.bestFitRank sim input) (s.fitting sim input exclude sim.addrs) := by
  obtain ⟨acc, hloop, h⟩ := Query.bind_ok.mp h
  have hscan := bestFitLoop_eq (by decide) hloop
  rw [scan_eq] at hscan
  have hr : r = if acc.1 = 200 then none else acc.2 := (Except.ok.inj h).symm
  cases hlast : lastMin (s.bestFitRank sim input) (s.fitting sim input exclude sim.addrs) with
  | none =>
      rw [hlast] at hscan
      rw [hr, hscan]
      rfl
  | some c =>
      have hlt := hsizes.rank_lt (s := s) (mem_fitting.mp (lastMin_mem hlast)).1
      rw [hlast, Option.elim_some, if_pos hlt.le] at hscan
      rw [hr, hscan]
      exact if_neg (ne_of_lt hlt)

/-! ## The specification -/

/-- `a` holds a node that is eligible for `input`, a gpu-let of one task. -/
structure Eligible (s : Scheduler) (sim : SimState) (input : Node) (task : Task)
    (exclude : List Addr) (a : Addr) (node : Node) : Prop where
  node_eq : sim.node? a = some node
  type_eq : ∃ gpu, sim.vGPUList[a.gpu]? = some gpu ∧ gpu.TYPE = input.type ∧
    (s.checkMem = true → s.doesFitMemLimit gpu task.id node = .ok true)
  empty : node.vTaskList = []
  part_ge : input.resourcePntg ≤ node.resourcePntg
  not_excluded : a ∉ exclude
  slo : ∃ v, s.getLatencyOn input.type task.id task.batchSize node sim = .ok v ∧
    v + s.dutyOf input ≤ task.SLO
  undisturbed : s.checkForInterference input.type node sim = .ok false

theorem fitsNode_iff {gpu : GPU} :
    s.fitsNode sim input task gpu node = .ok true ↔
      (s.checkMem = true → s.doesFitMemLimit gpu task.id node = .ok true) ∧
        (∃ v, s.getLatencyOn input.type task.id task.batchSize node sim = .ok v ∧
          v + s.dutyOf input ≤ task.SLO) ∧
        s.checkForInterference input.type node sim = .ok false := by
  have hrest : ∀ memOK : Bool, (do
      let latency ← s.getLatencyOn input.type task.id task.batchSize node sim
      if memOK && decide (latency + s.dutyOf input ≤ task.SLO) then
        let disturbed ← s.checkForInterference input.type node sim
        return !disturbed
      else return false : Query Bool) = .ok true ↔
      memOK = true ∧ (∃ v, s.getLatencyOn input.type task.id task.batchSize node sim = .ok v ∧
        v + s.dutyOf input ≤ task.SLO) ∧ s.checkForInterference input.type node sim = .ok false := by
    intro memOK
    cases hv : s.getLatencyOn input.type task.id task.batchSize node sim with
    | error e => simp [bind, Except.bind]
    | ok v =>
        simp only [bind, Except.bind, Except.ok.injEq, exists_eq_left']
        split
        case isTrue hcond =>
          simp only [Bool.and_eq_true, decide_eq_true_eq] at hcond
          cases hdist : s.checkForInterference input.type node sim with
          | error e => simp
          | ok d => simp [hcond, pure, Except.pure]
        case isFalse hcond =>
          simp only [Bool.and_eq_true, decide_eq_true_eq] at hcond
          simp only [pure, Except.pure, Except.ok.injEq, Bool.false_eq_true, false_iff]
          exact fun h => hcond ⟨h.1, h.2.1⟩
  unfold fitsNode
  split
  case isTrue hmem =>
    cases hfit : s.doesFitMemLimit gpu task.id node with
    | error e => simp [bind, Except.bind, hmem]
    | ok memOK =>
        rw [Query.ok_bind, hrest]
        simp [hmem]
  case isFalse hmem =>
    rw [Query.ok_bind, hrest]
    simp [hmem]

theorem eligible_iff (htask : input.vTaskList = [task]) :
    s.tryNode sim input exclude a = .ok true ↔ ∃ node, Eligible s sim input task exclude a node := by
  unfold tryNode
  rw [htask]
  constructor
  · intro h
    split at h
    case h_2 => cases h
    case h_1 gpu node hgpu hnode =>
      split at h
      case isTrue => cases h
      case isFalse hskip =>
        simp only [not_or, not_not, not_lt] at hskip
        obtain ⟨htype, hpart, hempty, hexcl⟩ := hskip
        obtain ⟨hmem, hslo, hdist⟩ := fitsNode_iff.mp h
        exact ⟨node, hnode, ⟨gpu, hgpu, htype, hmem⟩, hempty, hpart, hexcl, hslo, hdist⟩
  · rintro ⟨node, hnode, ⟨gpu, hgpu, htype, hmem⟩, hempty, hpart, hexcl, hslo, hdist⟩
    have hskip : ¬ (gpu.TYPE ≠ input.type ∨ node.resourcePntg < input.resourcePntg ∨
        node.vTaskList ≠ [] ∨ a ∈ exclude) := by
      simp only [not_or, not_not, not_lt]
      exact ⟨htype, hpart, hempty, hexcl⟩
    simp only [hgpu, hnode, if_neg hskip]
    exact fitsNode_iff.mpr ⟨hmem, hslo, hdist⟩

/-- What the caller of `findBestFit` gets. -/
structure BestFit (s : Scheduler) (sim : SimState) (input : Node) (task : Task)
    (exclude : List Addr) (r : Option Addr) : Prop where
  some_iff : r.isSome = true ↔ ∃ a node, Eligible s sim input task exclude a node
  eligible : ∀ a, r = some a → ∃ node, Eligible s sim input task exclude a node
  /-- Without partitioning, or with no whole GPU to take: a smallest node. -/
  smallest : (s.usePart = false ∨
      ∀ a node, Eligible s sim input task exclude a node → node.resourcePntg ≠ 100) →
    ∀ a node, r = some a → sim.node? a = some node →
      ∀ a' node', Eligible s sim input task exclude a' node' →
        node.resourcePntg ≤ node'.resourcePntg
  /-- Otherwise a whole GPU or an exact fit. -/
  whole : s.usePart = true →
    (∃ a node, Eligible s sim input task exclude a node ∧ node.resourcePntg = 100) →
    ∀ a node, r = some a → sim.node? a = some node →
      node.resourcePntg = 100 ∨ node.resourcePntg = input.resourcePntg

/-- `findBestFit` meets its specification whenever it returns, and it returns
when no lookup of its tests fails. -/
theorem findBestFit_spec (hsizes : Sizes sim input) (htask : input.vTaskList = [task]) :
    (∀ r, s.findBestFit sim input exclude = .ok r → BestFit s sim input task exclude r) ∧
      ((∀ a ∈ sim.addrs, ∃ ok, s.tryNode sim input exclude a = .ok ok) →
        ∃ r, s.findBestFit sim input exclude = .ok r) := by
  refine ⟨fun r h => ?_, findBestFit_total⟩
  have hmem : ∀ a, a ∈ s.fitting sim input exclude sim.addrs ↔
      ∃ node, Eligible s sim input task exclude a node := by
    intro a
    rw [mem_fitting, eligible_iff htask, and_iff_right_iff_imp]
    rintro ⟨node, helig⟩
    exact SimState.mem_addrs.mpr ⟨node, helig.node_eq⟩
  have hpart : ∀ {a node}, sim.node? a = some node → partAt sim a = node.resourcePntg :=
    fun hnode => by simp [partAt, hnode]
  have hr := findBestFit_eq hsizes h
  subst hr
  refine ⟨?_, ?_, ?_, ?_⟩
  · rw [lastMin_isSome]
    constructor
    · intro hne
      obtain ⟨a, ha⟩ := List.exists_mem_of_ne_nil _ hne
      exact ⟨a, (hmem a).mp ha⟩
    · rintro ⟨a, helig⟩
      exact List.ne_nil_of_mem ((hmem a).mpr helig)
  · exact fun a ha => (hmem a).mp (lastMin_mem ha)
  · intro hno a node ha hnode a' node' helig'
    obtain ⟨node₁, helig⟩ := (hmem a).mp (lastMin_mem ha)
    obtain rfl := Option.some.inj (hnode.symm.trans helig.node_eq)
    have hrank : ∀ {b n}, Eligible s sim input task exclude b n →
        s.bestFitRank sim input b = n.resourcePntg - input.resourcePntg := by
      intro b n hb
      rw [bestFitRank, hpart hb.node_eq, if_neg]
      rintro ⟨h100, huse⟩
      rcases hno with hoff | hnone
      · rw [hoff] at huse
        cases huse
      · exact hnone b n hb h100
    have hle := lastMin_le ha ((hmem a').mpr ⟨node', helig'⟩)
    rw [hrank helig, hrank helig'] at hle
    omega
  · rintro huse ⟨a', node', helig', h100⟩ a node ha hnode
    have hzero : s.bestFitRank sim input a' = 0 := by
      rw [bestFitRank, hpart helig'.node_eq, if_pos ⟨h100, huse⟩]
    have hle := lastMin_le ha ((hmem a').mpr ⟨node', helig'⟩)
    obtain ⟨node₁, helig⟩ := (hmem a).mp (lastMin_mem ha)
    obtain rfl := Option.some.inj (hnode.symm.trans helig.node_eq)
    have hge := helig.part_ge
    rw [hzero, bestFitRank, hpart hnode] at hle
    split at hle
    case isTrue hfirst => exact Or.inl hfirst.1
    case isFalse => exact Or.inr (by omega)

/-- A gpu-let of 50% for 40 requests of model 0. -/
def halfInput : Node :=
  { makeEmptyNode 0 50 "gpu" with
    vTaskList := [createNewTask 0 40 100 1 40], dutyCycle := some 25, occupancy := 10 / 25 }

/-- An empty GPU that is split into these parts. -/
def splitGPU (id : Nat) (part part' : Int) : GPU :=
  { GPUID := id, totalMemory := 11000, usedMemory := 0, TYPE := "gpu", vLoadedParts := []
    vNodeList := [makeEmptyNode id part "gpu", { makeEmptyNode id part' "gpu" with dedupNum := 1 }] }

/-- Of 60%, 40% and two halves it takes the last half. -/
theorem findBestFit_spec_at :
    (plain (profile [40, 50, 60] fun _ _ => 10) [40, 50, 60, 100] 2).findBestFit
        ⟨[splitGPU 0 60 40, splitGPU 1 50 50], []⟩ halfInput [] = .ok (some ⟨1, 1⟩) ∧
      BestFit (plain (profile [40, 50, 60] fun _ _ => 10) [40, 50, 60, 100] 2)
        ⟨[splitGPU 0 60 40, splitGPU 1 50 50], []⟩ halfInput
        (createNewTask 0 40 100 1 40) [] (some ⟨1, 1⟩) := by
  have hrun : (plain (profile [40, 50, 60] fun _ _ => 10) [40, 50, 60, 100] 2).findBestFit
      ⟨[splitGPU 0 60 40, splitGPU 1 50 50], []⟩ halfInput [] = .ok (some ⟨1, 1⟩) := by
    decide +kernel
  exact ⟨hrun, (findBestFit_spec ⟨by decide, by decide⟩ rfl).1 _ hrun⟩

/-! ## The neighbour check

`checkForInterference` fills a temporary node with the candidate's tasks and
then asks for the interference on a GPU that holds the neighbour only. -/

/-- The lookups of the check for the tasks of a neighbour: execution latency
and batching overhead. -/
def NeighbourProfile (s : Scheduler) (device : DeviceType) (neighbour : Node) (pure overhead : Task → ℚ)
    (ts : List Task) : Prop :=
  ∀ u ∈ ts, ∃ name, getModelName u.id = .ok name ∧
    s.devLatency device name u.batchSize neighbour.resourcePntg = .ok (pure u) ∧
    s.getBatchLatency name u.batchSize = .ok (overhead u)

/-- A node does not disturb itself. -/
theorem getInterference_self {device : DeviceType} {id batch : Int} :
    s.getInterference device id batch node [node] 1 = .ok 1 := by
  simp [getInterference, isSameNode]

theorem neighbourDisturbed_eq {device : DeviceType} {neighbour : Node} {pure overhead : Task → ℚ}
    {ts : List Task} (hlook : NeighbourProfile s device neighbour pure overhead ts) :
    s.neighbourDisturbed device neighbour ts =
      .ok (ts.any fun u => decide ((u.SLO : ℚ) < overhead u + 2 * s.dutyOf neighbour)) := by
  induction ts with
  | nil => rfl
  | cons u ts ih =>
      obtain ⟨name, hname, hpure, hover⟩ := hlook u (List.mem_cons_self ..)
      have hsum : pure u * (1 - 1) + overhead u + s.dutyOf neighbour + s.dutyOf neighbour =
          overhead u + 2 * s.dutyOf neighbour := by ring
      simp only [neighbourDisturbed, hname, hpure, hover, getInterference_self, Query.ok_bind, hsum,
        List.any_cons]
      by_cases hover : (u.SLO : ℚ) < overhead u + 2 * s.dutyOf neighbour
      · rw [if_pos hover, decide_eq_true hover, Bool.true_or]
        rfl
      · rw [if_neg hover, decide_eq_false hover, Bool.false_or]
        exact ih fun v hv => hlook v (List.mem_cons_of_mem u hv)

/-- Some task of the neighbour misses its SLO under the largest interference
by a task of the candidate `theNode`, which runs at the size of `realNode`. -/
def DisturbedBy (s : Scheduler) (device : DeviceType) (theNode realNode neighbour : Node)
    (pure overhead : Task → ℚ) : Prop :=
  ∃ u ∈ neighbour.vTaskList, ∃ i,
    s.maxInterference device u.id u.batchSize neighbour.resourcePntg realNode.resourcePntg
      theNode.vTaskList 1 = .ok i ∧
    (u.SLO : ℚ) < pure u * (i - 1) + overhead u + s.dutyOf neighbour

/-- The check reports every neighbour that the candidate disturbs exactly when
it disturbs none, or some task of the neighbour is late without it, with twice
the duty cycle. -/
theorem checkForInterference_iff {device : DeviceType} {theNode realNode neighbour : Node}
    {pure overhead : Task → ℚ} (hsize : realNode.resourcePntg < 100)
    (hother : getOtherNode realNode sim = some neighbour)
    (hlook : NeighbourProfile s device neighbour pure overhead neighbour.vTaskList) :
    (s.DisturbedBy device theNode realNode neighbour pure overhead →
      s.checkForInterference device realNode sim = .ok true) ↔
      ¬ s.DisturbedBy device theNode realNode neighbour pure overhead ∨
        ∃ u ∈ neighbour.vTaskList, (u.SLO : ℚ) < overhead u + 2 * s.dutyOf neighbour := by
  have hcheck : s.checkForInterference device realNode sim =
      .ok (neighbour.vTaskList.any fun u =>
        decide ((u.SLO : ℚ) < overhead u + 2 * s.dutyOf neighbour)) := by
    rw [checkForInterference, if_neg (by omega), hother]
    exact neighbourDisturbed_eq hlook
  rw [hcheck, Except.ok.injEq, List.any_eq_true, imp_iff_not_or]
  simp only [decide_eq_true_eq]

/-- A half of a GPU on which model 1 runs. -/
def busyHalf : Node :=
  { makeEmptyNode 0 50 "gpu" with
    vTaskList := [createNewTask 1 50 100 1 50], dutyCycle := some 20, occupancy := 1 }

/-- The other half, empty, and a candidate for it. -/
def emptyHalf : Node := { makeEmptyNode 0 50 "gpu" with dedupNum := 1 }

def halfCandidate : Node :=
  { makeEmptyNode 0 50 "gpu" with vTaskList := [createNewTask 0 40 100 1 40] }

/-- Two halves of one GPU: model 1 runs on the first, the second is empty. -/
def halves : SimState :=
  ⟨[{ GPUID := 0, totalMemory := 11000, usedMemory := 0, TYPE := "gpu", vLoadedParts := [],
      vNodeList := [busyHalf, emptyHalf] }], []⟩

/-- A scheduler in which a neighbour makes a model `alpha` times as slow. -/
def disturbing (latency alpha : ℚ) : Scheduler :=
  { plain (profile [50, 100] fun _ _ => latency) [50, 100] 1 with
    useInterference := true
    nametoDevPerfModelTable := fun _ =>
      { getLatency := profile [50, 100] fun _ _ => latency
        getInterference := fun _ _ _ _ _ _ => alpha
        getDevMem := 11000 } }

theorem disturbing_profile {latency alpha : ℚ} {neighbour : Node} {slo : Int}
    (hsize : neighbour.resourcePntg = 50) : NeighbourProfile (disturbing latency alpha) "gpu"
      neighbour (fun _ => latency) (fun _ => 4 / 10) [createNewTask 1 50 slo 1 50] := by
  intro u hu
  obtain rfl := List.mem_singleton.mp hu
  refine ⟨.lenet2, rfl, by rw [hsize]; rfl, ?_⟩
  simp [getBatchLatency, assert, createNewTask, bind, Except.bind, pure, Except.pure]

/-- Beside the candidate the 30 ms of model 1 become 150, and the check finds
nothing wrong. -/
theorem checkForInterference_misses :
    (disturbing 30 5).DisturbedBy "gpu" halfCandidate emptyHalf busyHalf
        (fun _ => 30) (fun _ => 4 / 10) ∧
      (disturbing 30 5).checkForInterference "gpu" emptyHalf halves = .ok false := by
  refine ⟨⟨createNewTask 1 50 100 1 50, List.mem_singleton.mpr rfl, 5, by decide, ?_⟩,
    by decide +kernel⟩
  show ((100 : Int) : ℚ) < 30 * (5 - 1) + 4 / 10 + 20
  norm_num

/-- The first half with an SLO of 40, which model 1 misses by itself at twice
the duty cycle. -/
def lateHalf : Node := { busyHalf with vTaskList := [createNewTask 1 50 40 1 50] }

def lateHalves : SimState :=
  ⟨[{ GPUID := 0, totalMemory := 11000, usedMemory := 0, TYPE := "gpu", vLoadedParts := [],
      vNodeList := [lateHalf, emptyHalf] }], []⟩

/-- The candidate makes model 1 late, and the check says so. -/
theorem checkForInterference_at :
    (disturbing 30 5).checkForInterference "gpu" emptyHalf lateHalves = .ok true := by
  have hlate : ∃ u ∈ lateHalf.vTaskList,
      (u.SLO : ℚ) < 4 / 10 + 2 * (disturbing 30 5).dutyOf lateHalf := by
    refine ⟨createNewTask 1 50 40 1 50, List.mem_singleton.mpr rfl, ?_⟩
    show ((40 : Int) : ℚ) < 4 / 10 + 2 * 20
    norm_num
  have hdisturbed : (disturbing 30 5).DisturbedBy "gpu" halfCandidate emptyHalf lateHalf
      (fun _ => 30) (fun _ => 4 / 10) := by
    refine ⟨createNewTask 1 50 40 1 50, List.mem_singleton.mpr rfl, 5, by decide, ?_⟩
    show ((40 : Int) : ℚ) < 30 * (5 - 1) + 4 / 10 + 20
    norm_num
  exact (checkForInterference_iff (by decide) rfl (disturbing_profile rfl)).mpr (Or.inr hlate) hdisturbed

end Scheduler

end Glet
