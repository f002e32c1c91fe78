import Glet.FullSearch
import Glet.Partition
import Glet.Reach

/-!
# Installing a partitioning

`resetScheduler` builds the GPUs of a decision from the table of device types and
gives each the nodes of a partitioning that name it. Its index `idx` is declared
inside the loop over the types, so it starts from 0 for every type; those of
`initiateDevs` and `initDevMems` run on. With one type the partitioning is
installed (`resetScheduler_installs_iff`) and the decision is partitioned as the
scheduler expects it (`resetScheduler_shaped`); with more, the first GPU of the
second type is another GPU 0.
-/

namespace Glet

namespace Scheduler

variable {s : Scheduler} {sizes : List NodeSize} {table : List (DeviceType × Int)} {i n : Nat}
  {g : GPU} {type : DeviceType} {input : SimState} {types : List DeviceType} {idx num : Nat}

/-! ## `resetScheduler` -/

/-- The nodes of a partitioning for the GPU at `idx`. -/
def nodesFor (sizes : List NodeSize) (idx : Nat) (type : DeviceType) : List Node :=
  (sizes.filter fun z : NodeSize => decide (z.id - 1 = idx)).map fun z =>
    { makeEmptyNode (z.id - 1).toNat z.resourcePntg type with dedupNum := z.dedupNum }

def resetGPU (s : Scheduler) (sizes : List NodeSize) (type : DeviceType) (idx : Nat) : GPU :=
  { GPUID := idx, TYPE := type, totalMemory := s.uninit.memory, usedMemory := s.uninit.memory,
    vLoadedParts := [], vNodeList := nodesFor sizes idx type }

/-- The loop over the GPUs of one type, with `num` to go. -/
def resetGPUs (s : Scheduler) (sizes : List NodeSize) (type : DeviceType) : Nat → Nat → List GPU
  | 0, _ => []
  | num + 1, idx => s.resetGPU sizes type idx :: resetGPUs s sizes type num (idx + 1)

/-- `resetScheduler`: every type starts with `int idx=0`. -/
def resetScheduler (s : Scheduler) (input : SimState) (sizes : List NodeSize) : SimState :=
  { input with
    vGPUList := s.typeToNumofTypeTable.foldl
      (fun gpus entry => gpus ++ s.resetGPUs sizes entry.1 entry.2.toNat 0) input.vGPUList }

theorem resetGPUs_eq : s.resetGPUs sizes type num idx =
    (List.range num).map fun j => s.resetGPU sizes type (idx + j) := by
  induction num generalizing idx with
  | zero => rfl
  | succ num ih =>
      rw [resetGPUs, ih, List.range_succ_eq_map, List.map_cons, List.map_map]
      refine congrArg₂ List.cons rfl (List.map_congr_left fun j _ => ?_)
      have hidx : idx + 1 + j = idx + (j + 1) := by omega
      rw [Function.comp_apply, hidx]

theorem resetScheduler_eq (hempty : input.vGPUList = []) :
    (s.resetScheduler input sizes).vGPUList =
      s.typeToNumofTypeTable.flatMap fun entry => s.resetGPUs sizes entry.1 entry.2.toNat 0 := by
  rw [resetScheduler, hempty, List.flatMap_eq_foldl]

/-- The types are those of the table, in its order. -/
theorem resetScheduler_types (hempty : input.vGPUList = []) :
    (s.resetScheduler input sizes).vGPUList.map (·.TYPE) = s.deviceTypes := by
  rw [resetScheduler_eq hempty, List.map_flatMap, deviceTypes]
  refine List.flatMap_congr fun entry _ => ?_
  rw [resetGPUs_eq, List.map_map]
  have hconst : ((fun g : GPU => g.TYPE) ∘ fun j => s.resetGPU sizes entry.1 (0 + j)) =
    fun _ => entry.1 := rfl
  rw [hconst, List.map_const', List.length_range]

/-! ## The devices of the other two loops -/

theorem initiateDevsFrom_types {nDevs : Int} (h : (idx + types.length : Int) = nDevs) :
    (s.initiateDevsFrom nDevs types idx).map (·.TYPE) = types := by
  induction types generalizing idx with
  | nil => rfl
  | cons type types ih =>
      rw [List.length_cons] at h
      push_cast at h
      rw [initiateDevsFrom, List.map_cons]
      split
      case isTrue hlast =>
        have hnil : types = [] := List.length_eq_zero_iff.mp (by omega)
        rw [hnil, List.map_nil]
      case isFalse =>
        rw [ih (by push_cast; omega)]

/-- `initDevMems` gives a GPU the memory of its type. -/
theorem initDevMemsFrom_total {gpus : List GPU} (htypes : gpus.map (·.TYPE) = types)
    (h : g ∈ s.initDevMemsFrom types gpus) :
    g.totalMemory = (s.nametoDevPerfModelTable g.TYPE).getDevMem := by
  induction gpus generalizing types with
  | nil =>
      subst htypes
      cases h
  | cons g₀ gpus ih =>
      subst htypes
      rcases List.mem_cons.mp h with rfl | h
      · rfl
      · exact ih rfl h

/-! ## What is installed -/

/-- `n` GPUs in the order of their ids, of the types that `initiateDevs` and
`initDevMems` go by, each with its nodes of the partitioning. -/
structure Installed (s : Scheduler) (sizes : List NodeSize) (n : Nat) (sim : SimState) : Prop where
  length : sim.vGPUList.length = n
  GPUID_eq : ∀ (i : Nat) (g : GPU), sim.vGPUList[i]? = some g → g.GPUID = i
  initiated : ∀ (i : Nat) (g : GPU), sim.vGPUList[i]? = some g →
    ∃ g', (s.initiateDevs ⟨[], []⟩ n).vGPUList[i]? = some g' ∧ g'.TYPE = g.TYPE
  memory : ∀ sim', s.initDevMems sim = .ok sim' → ∀ g ∈ sim'.vGPUList,
    g.totalMemory = (s.nametoDevPerfModelTable g.TYPE).getDevMem
  nodes : ∀ (i : Nat) (g : GPU), sim.vGPUList[i]? = some g →
    g.vNodeList = (sizes.filter fun z : NodeSize => decide (z.id = i + 1)).map fun z =>
      { makeEmptyNode i z.resourcePntg g.TYPE with dedupNum := z.dedupNum }

theorem nodesFor_eq : nodesFor sizes i type =
    (sizes.filter fun z : NodeSize => decide (z.id = i + 1)).map fun z =>
      { makeEmptyNode i z.resourcePntg type with dedupNum := z.dedupNum } := by
  have hfilter : (sizes.filter fun z : NodeSize => decide (z.id - 1 = i)) =
      sizes.filter fun z : NodeSize => decide (z.id = i + 1) := by
    refine List.filter_congr fun z _ => decide_eq_decide.mpr ?_
    omega
  rw [nodesFor, hfilter]
  refine List.map_congr_left fun z hz => ?_
  have hid : z.id = i + 1 := of_decide_eq_true (List.mem_filter.mp hz).2
  have hidx : (z.id - 1).toNat = i := by omega
  rw [hidx]

theorem length_deviceTypes (hpos : ∀ entry ∈ s.typeToNumofTypeTable, 0 < entry.2) :
    (s.deviceTypes.length : Int) = (s.typeToNumofTypeTable.map (·.2)).sum := by
  unfold deviceTypes
  revert hpos
  induction s.typeToNumofTypeTable with
  | nil => intro; rfl
  | cons entry table ih =>
      intro hpos
      have hentry := hpos entry (List.mem_cons_self ..)
      have htable := ih fun e he => hpos e (List.mem_cons_of_mem _ he)
      rw [List.flatMap_cons, List.length_append, List.length_replicate, List.map_cons,
        List.sum_cons, ← htable]
      push_cast
      omega

/-- With one type the GPU at index `i` is made at `idx = i`. -/
theorem resetScheduler_one (hempty : input.vGPUList = [])
    (hone : s.typeToNumofTypeTable.length ≤ 1)
    (hg : (s.resetScheduler input sizes).vGPUList[i]? = some g) :
    ∃ type, g = s.resetGPU sizes type i := by
  rw [resetScheduler_eq hempty] at hg
  cases htable : s.typeToNumofTypeTable with
  | nil =>
      rw [htable] at hg
      cases hg
  | cons entry table =>
      rw [htable, List.length_cons] at hone
      obtain rfl : table = [] := List.length_eq_zero_iff.mp (by omega)
      rw [htable, List.flatMap_cons, List.flatMap_nil, List.append_nil, resetGPUs_eq,
        List.getElem?_map] at hg
      obtain ⟨j, hj, rfl⟩ := Option.map_eq_some_iff.mp hg
      obtain ⟨-, rfl⟩ := List.getElem?_eq_some_iff.mp hj
      exact ⟨entry.1, by rw [List.getElem_range, Nat.zero_add]⟩

/-- With a second type there is another GPU with id 0. -/
theorem resetScheduler_two {entry entry' : DeviceType × Int} (hempty : input.vGPUList = [])
    (htable : s.typeToNumofTypeTable = entry :: entry' :: table) (hpos' : 0 < entry'.2) :
    (s.resetScheduler input sizes).vGPUList[entry.2.toNat]? =
      some (s.resetGPU sizes entry'.1 0) := by
  rw [resetScheduler_eq hempty, htable, List.flatMap_cons, List.flatMap_cons, resetGPUs_eq,
    List.getElem?_append_right (by simp), List.length_map, List.length_range, Nat.sub_self]
  obtain ⟨num, hnum⟩ : ∃ num, entry'.2.toNat = num + 1 := ⟨entry'.2.toNat - 1, by omega⟩
  rw [hnum, resetGPUs, List.cons_append, List.getElem?_cons_zero]

/-- **Resetting.** On an empty decision `resetScheduler` installs a partitioning
of `n` GPUs if and only if they are of one type. -/
theorem resetScheduler_installs_iff (s : Scheduler) (input : SimState) (sizes : List NodeSize)
    (n : Nat) (hempty : input.vGPUList = [])
    (hpos : ∀ entry ∈ s.typeToNumofTypeTable, 0 < entry.2)
    (hsum : (s.typeToNumofTypeTable.map (·.2)).sum = n) :
    Installed s sizes n (s.resetScheduler input sizes) ↔ s.typeToNumofTypeTable.length ≤ 1 := by
  have hlen : s.deviceTypes.length = n := by
    have h := length_deviceTypes hpos
    omega
  constructor
  · intro h
    by_contra hmore
    cases htable : s.typeToNumofTypeTable with
    | nil => simp [htable] at hmore
    | cons entry rest =>
        cases rest with
        | nil => simp [htable] at hmore
        | cons entry' rest =>
            have hentry : 0 < entry.2 := hpos entry (by simp [htable])
            have hsecond : (s.resetScheduler input sizes).vGPUList[entry.2.toNat]? =
                some (s.resetGPU sizes entry'.1 0) :=
              resetScheduler_two hempty htable (hpos entry' (by simp [htable]))
            have hid : 0 = entry.2.toNat := h.GPUID_eq _ _ hsecond
            omega
  · intro hone
    have htypes : (s.resetScheduler input sizes).vGPUList.map (·.TYPE) = s.deviceTypes :=
      resetScheduler_types hempty
    have hdevs : (s.initiateDevs ⟨[], []⟩ n).vGPUList.map (·.TYPE) = s.deviceTypes :=
      initiateDevsFrom_types (by rw [hlen]; simp)
    refine ⟨?_, fun i g hg => ?_, fun i g hg => ?_, fun sim' hmem g hg => ?_, fun i g hg => ?_⟩
    · rw [← hlen, ← htypes, List.length_map]
    · obtain ⟨type, rfl⟩ := resetScheduler_one hempty hone hg
      rfl
    · have htype : s.deviceTypes[i]? = some g.TYPE := by
        rw [← htypes, List.getElem?_map, hg, Option.map_some]
      rw [← hdevs, List.getElem?_map] at htype
      obtain ⟨g', hg', heq⟩ := Option.map_eq_some_iff.mp htype
      exact ⟨g', hg', heq⟩
    · obtain ⟨u, -, hmem⟩ := Query.bind_ok.mp hmem
      obtain rfl := Query.pure_ok.mp hmem
      exact initDevMemsFrom_total htypes hg
    · obtain ⟨type, rfl⟩ := resetScheduler_one hempty hone hg
      exact nodesFor_eq

/-- Two GPUs of one type, the second of them split. -/
theorem resetScheduler_installs_plain :
    [⟨2, 50, 0⟩, ⟨2, 50, 1⟩, ⟨1, 100, 0⟩] ∈ fillPossibleCases2 [50, 100] [] 2 ∧
      Installed (.plain (Scheduler.profile [100] fun _ _ => 5) [50, 100] 2)
        [⟨2, 50, 0⟩, ⟨2, 50, 1⟩, ⟨1, 100, 0⟩] 2
        ((Scheduler.plain (Scheduler.profile [100] fun _ _ => 5) [50, 100] 2).resetScheduler
          ⟨[], []⟩ [⟨2, 50, 0⟩, ⟨2, 50, 1⟩, ⟨1, 100, 0⟩]) :=
  ⟨by decide, (resetScheduler_installs_iff _ _ _ 2 rfl (by decide) (by decide)).mpr (by decide)⟩

/-- One GPU each of two types: both get id 0 and the nodes of the first. -/
theorem resetScheduler_two_types :
    ¬ ∀ (s : Scheduler) (input : SimState) (availpart : List Int) (n : Nat) (sizes : List NodeSize),
      input.vGPUList = [] → (∀ entry ∈ s.typeToNumofTypeTable, 0 < entry.2) →
      (s.typeToNumofTypeTable.map (·.2)).sum = n →
      sizes ∈ fillPossibleCases2 availpart [] n →
      Installed s sizes n (s.resetScheduler input sizes) := by
  intro h
  have hinst := h { Scheduler.plain (Scheduler.profile [100] fun _ _ => 5) [100] 2 with
      typeToNumofTypeTable := [("a", 1), ("b", 1)] } ⟨[], []⟩ [100] 2
    [⟨2, 100, 0⟩, ⟨1, 100, 0⟩] rfl (by decide) (by decide) (by decide)
  exact absurd (hinst.GPUID_eq 1 _ rfl) (by decide)

/-! ## From the full search -/

/-- A GPU of the search is whole or split in two. -/
theorem splitAt_split {gpuid a : Int} (hlo : 0 ≤ a) (hhi : a ≤ 100) :
    Split ((splitAt gpuid a).map fun z => (z.resourcePntg, z.dedupNum)) := by
  by_cases h1 : a = 0
  · subst h1
    exact .whole
  · by_cases h2 : a = 100
    · subst h2
      exact .whole
    · have hboth : (splitAt gpuid a).map (fun z => (z.resourcePntg, z.dedupNum)) =
          [(a, 0), (100 - a, if a = 50 then 1 else 0)] := by
        have hrest : 100 - a ≠ 0 := by omega
        simp [splitAt, h1, hrest]
      rw [hboth]
      exact .parts (by omega) (by omega)

/-- What the full search installs on GPUs of one type keeps the partition
invariant. -/
theorem resetScheduler_shaped {availpart : List Int} {n : Nat}
    (hrange : ∀ a ∈ availpart, 0 ≤ a ∧ a ≤ 100) (hempty : input.vGPUList = [])
    (hpos : ∀ entry ∈ s.typeToNumofTypeTable, 0 < entry.2)
    (hsum : (s.typeToNumofTypeTable.map (·.2)).sum = n)
    (hone : s.typeToNumofTypeTable.length ≤ 1)
    (hsizes : sizes ∈ fillPossibleCases2 availpart [] n) :
    AllGPUs ShapedGPU (s.resetScheduler input sizes) := by
  have hlist : fillPossibleCases2 availpart [] n =
      (IndexVectors.vectors availpart.length n).map (caseOf availpart n) := by
    rw [fillPossibleCases2, returnNodeList_eq]
    simp only [List.nil_append]
  rw [hlist] at hsizes
  obtain ⟨v, hv, rfl⟩ := List.mem_map.mp hsizes
  obtain ⟨hlen, hindex⟩ := IndexVectors.mem_vectors.mp hv
  intro i g hg
  have hin : i < n := by
    have hlt := (List.getElem?_eq_some_iff.mp hg).1
    have htypes : (s.resetScheduler input (caseOf availpart n v)).vGPUList.map (·.TYPE) =
        s.deviceTypes := resetScheduler_types hempty
    have hcount := length_deviceTypes hpos
    have hlength := congrArg List.length htypes
    rw [List.length_map] at hlength
    omega
  obtain ⟨type, rfl⟩ := resetScheduler_one hempty hone hg
  have hvn : n - (i + 1) < v.length := by omega
  have hchoice := List.getElem?_eq_getElem hvn
  have hmem : availpart.getD v[n - (i + 1)] 0 ∈ availpart := by
    have hlt := hindex _ (List.getElem_mem hvn)
    rw [List.getD_eq_getElem?_getD, List.getElem?_eq_getElem hlt, Option.getD_some]
    exact List.getElem_mem hlt
  have hcase := @caseOf_filter availpart n v (i + 1) _ (by omega) hin hchoice
  have hnodes : nodesFor (caseOf availpart n v) i type =
      ((caseOf availpart n v).filter fun z : NodeSize => decide (z.id = i + 1)).map fun z =>
        { makeEmptyNode i z.resourcePntg type with dedupNum := z.dedupNum } := nodesFor_eq
  push_cast at hcase
  rw [hcase] at hnodes
  refine ⟨rfl, fun m hm => ?_, ?_, fun m hm => ?_⟩
  · rw [resetGPU, hnodes] at hm
    obtain ⟨z, -, rfl⟩ := List.mem_map.mp hm
    rfl
  · have hkeys : ((s.resetGPU (caseOf availpart n v) type i).vNodeList).map Node.key =
        (splitAt (i + 1 : Nat) (availpart.getD v[n - (i + 1)] 0)).map fun z =>
          (z.resourcePntg, z.dedupNum) := by
      rw [resetGPU, hnodes, List.map_map]
      push_cast
      rfl
    rw [hkeys]
    obtain ⟨hlo, hhi⟩ := hrange _ hmem
    exact splitAt_split hlo hhi
  · rw [resetGPU, hnodes] at hm
    obtain ⟨z, -, rfl⟩ := List.mem_map.mp hm
    exact List.nodup_nil

end Scheduler

end Glet
