import Glet.KeptSizes
import Glet.ResetScheduler
import Glet.Rows

/-!
# The standalone scheduler

`main` of the standalone scheduler makes the saturation tables of the tasks
and schedules them once, from whole GPUs and with repartitioning, or with
`full_search` for one partitioning after the other, without repartitioning,
until a call succeeds.

The calls of a full search do not get in each other's way: the tables are made
beforehand, and every call starts from devices of its own. So it finds the
first partitioning, in the order of the enumeration, for which a call succeeds,
and the decision has this partitioning (`full_search_first`).
-/

namespace Glet.Scheduler

open Devices.Routing (Laid)

variable {s : Scheduler} {tasks : List Task} {table table' : SatTable} {vec : List NodeSize}

/-! ## `standalone_scheduler.cpp` -/

/-- AVAIL_PARTS. -/
def searchParts (s : Scheduler) : List Int := if s.usePart then [50, 60, 80, 100] else [100]

def withAvailParts (s : Scheduler) (parts : List Int) : Scheduler := { s with availParts := parts }

/-- `initSaturateTrp` for each task. -/
def initSaturateTrps (s : Scheduler) : List Task → SatTable → Query SatTable
  | [], table => return table
  | t :: ts, table => do
      let table ← s.initSaturateTrp t table
      initSaturateTrps s ts table

/-- The loop over `possible_cases`. -/
def tryCases (s : Scheduler) (tasks : List Task) :
    List (List NodeSize) → SatTable → Query (Option SimState)
  | [], _ => return none
  | vec :: cases, table => do
      let input ← s.initDevMems (s.resetScheduler ⟨[], []⟩ vec)
      let o ← s.runScheduling table tasks input ⟨[], []⟩ false
      match o.ret with
      | .success => return some o.out
      | .failure => tryCases s tasks cases o.table

/-- `main` after the setup of the sizes, up to the file: the decision it writes;
`none` for EMPTY. -/
def search (s : Scheduler) (fullSearch : Bool) (tasks : List Task) : Query (Option SimState) := do
  let simulator ← s.initDevMems (s.initiateDevs ⟨[], []⟩ s.getMaxGPUs)
  let table ← s.initSaturateTrps tasks fun _ => none
  if fullSearch then
    s.tryCases tasks (fillPossibleCases2 s.searchParts [] s.getMaxGPUs.toNat) table
  else do
    let o ← s.runScheduling table tasks simulator ⟨[], []⟩ true
    match o.ret with
    | .success => return some o.out
    | .failure => return none

def standalone (s : Scheduler) (fullSearch : Bool) (tasks : List Task) :
    Query (Option SimState) := do
  let parts ← s.setupAvailParts s.searchParts
  (s.withAvailParts parts).search fullSearch tasks

/-! ## The tables -/

theorem initSaturateTrp_other {t : Task} (h : s.initSaturateTrp t table = .ok table') (id : Int)
    (hsome : table id ≠ none) : table' id ≠ none := by
  simp only [initSaturateTrp, Query.bind_ok] at h
  obtain ⟨entries, -, h⟩ := h
  split at h
  · obtain rfl := Query.pure_ok.mp h
    exact hsome
  · obtain rfl := Query.pure_ok.mp h
    dsimp only
    split
    · exact Option.some_ne_none _
    · exact hsome

theorem initSaturateTrps_rows (hbuilt : Built s table)
    (h : s.initSaturateTrps tasks table = .ok table') :
    Built s table' ∧ (∀ t ∈ tasks, table' t.id ≠ none) ∧ ∀ id, table id ≠ none → table' id ≠ none := by
  induction tasks generalizing table with
  | nil =>
      obtain rfl := Query.pure_ok.mp h
      exact ⟨hbuilt, fun t ht => absurd ht List.not_mem_nil, fun _ => id⟩
  | cons t ts ih =>
      obtain ⟨table1, hfirst, hrest⟩ := Query.bind_ok.mp h
      obtain ⟨hbuilt', hrows, hkeep⟩ := ih (.init (n := s.numMaxGPU) hbuilt hfirst) hrest
      refine ⟨hbuilt', fun t' ht' => ?_, fun id hid => hkeep id (initSaturateTrp_other hfirst id hid)⟩
      rcases List.mem_cons.mp ht' with rfl | hmem
      · exact hkeep _ (initSaturateTrp_covers (built_rows hbuilt) hfirst).2
      · exact hrows t' hmem

/-! ## One partitioning -/

/-- A call for this partitioning returns `ret` and leaves `out`. -/
def Tried (s : Scheduler) (tasks : List Task) (table : SatTable) (vec : List NodeSize) (ret : Ret)
    (out : SimState) : Prop :=
  ∃ input o, s.initDevMems (s.resetScheduler ⟨[], []⟩ vec) = .ok input ∧
    s.runScheduling table tasks input ⟨[], []⟩ false = .ok o ∧ o.ret = ret ∧ o.out = out

/-- The nodes of the decision are those of the partitioning. -/
structure Follows (s : Scheduler) (vec : List NodeSize) (sim : SimState) : Prop where
  types : sim.vGPUList.map (·.TYPE) = s.deviceTypes
  keys : ∀ (i : Nat) (g : GPU), sim.vGPUList[i]? = some g →
    g.vNodeList.map Node.key = (vec.filter fun z : NodeSize => decide (z.id = i + 1)).map fun z =>
      (z.resourcePntg, z.dedupNum)

theorem follows_of_sizes {sim sim' : SimState} (hsizes : sim'.sizes = sim.sizes)
    (h : Follows s vec sim) : Follows s vec sim' := by
  refine ⟨?_, fun i g' hg' => ?_⟩
  · have htypes : ∀ sim : SimState, sim.vGPUList.map (·.TYPE) = sim.sizes.map (·.2.1) := by
      intro sim
      rw [SimState.sizes, List.map_map]
      rfl
    rw [htypes, hsizes, ← htypes]
    exact h.types
  · have hi : sim.sizes[i]? = some (g'.GPUID, g'.TYPE, g'.vNodeList.map Node.key) := by
      rw [← hsizes, SimState.sizes_getElem?, hg']
      rfl
    rw [SimState.sizes_getElem?] at hi
    obtain ⟨g, hg, heq⟩ := Option.map_eq_some_iff.mp hi
    simp only [Prod.mk.injEq] at heq
    rw [← heq.2.2]
    exact h.keys i g hg

theorem resetScheduler_follows (hone : s.typeToNumofTypeTable.length ≤ 1) :
    Follows s vec (s.resetScheduler ⟨[], []⟩ vec) := by
  refine ⟨resetScheduler_types rfl, fun i g hg => ?_⟩
  obtain ⟨type, rfl⟩ := resetScheduler_one rfl hone hg
  have hnodes : (s.resetGPU vec type i).vNodeList = nodesFor vec i type := rfl
  rw [hnodes, nodesFor_eq, List.map_map]
  rfl

theorem Tried.follows {out : SimState} (h : Tried s tasks table vec .success out)
    (hbuilt : Built s table) (hone : s.typeToNumofTypeTable.length ≤ 1) :
    Follows s vec out := by
  obtain ⟨input, o, hmems, hrun, hret, rfl⟩ := h
  have hsome : input.vGPUList ≠ [] := by
    obtain ⟨u, hassert, -⟩ := Query.bind_ok.mp hmems
    intro hnil
    have hlayout := SimState.layout_initDevMems hmems
    rw [SimState.layout, SimState.layout, hnil] at hlayout
    exact assert_ok.mp hassert (List.map_eq_nil_iff.mp hlayout.symm)
  have hsizes := (runScheduling_sizes hbuilt hsome hrun).2 hret
  refine follows_of_sizes (hsizes.trans ?_) (resetScheduler_follows hone)
  exact SimState.sizes_of_layout (SimState.layout_initDevMems hmems)

/-! ## The search -/

/-- Either every call fails, or the first that succeeds makes the decision. -/
theorem tryCases_first {cases : List (List NodeSize)} {found : Option SimState}
    (hbuilt : Built s table) (hrows : ∀ t ∈ tasks, table t.id ≠ none) (h : s.tryCases tasks cases table = .ok found) :
    (found = none ∧ ∀ vec ∈ cases, Tried s tasks table vec .failure ⟨[], []⟩) ∨
    ∃ pre vec post sim, cases = pre ++ vec :: post ∧ found = some sim ∧
      Tried s tasks table vec .success sim ∧
      ∀ v ∈ pre, Tried s tasks table v .failure ⟨[], []⟩ := by
  induction cases with
  | nil =>
      obtain rfl := Query.pure_ok.mp h
      exact Or.inl ⟨rfl, fun vec hvec => absurd hvec List.not_mem_nil⟩
  | cons vec cases ih =>
      obtain ⟨input, hmems, hrest⟩ := Query.bind_ok.mp h
      obtain ⟨o, hrun, hend⟩ := Query.bind_ok.mp hrest
      cases hret : o.ret with
      | success =>
          rw [hret] at hend
          obtain rfl := Query.pure_ok.mp hend
          exact Or.inr ⟨[], vec, cases, o.out, rfl, rfl, ⟨input, o, hmems, hrun, hret, rfl⟩,
            fun v hv => absurd hv List.not_mem_nil⟩
      | failure =>
          rw [hret] at hend
          dsimp only at hend
          rw [runScheduling_table hrows hrun] at hend
          obtain ⟨-, r', -, -, -, -, hout, -⟩ := runScheduling_ok hbuilt hrun
          have hthis : Tried s tasks table vec .failure ⟨[], []⟩ :=
            ⟨input, o, hmems, hrun, hret, hout hret⟩
          rcases ih hend with ⟨hnone, hall⟩ | ⟨pre, v, post, sim, rfl, hsome, hv, hpre⟩
          · refine Or.inl ⟨hnone, fun v hv => ?_⟩
            rcases List.mem_cons.mp hv with rfl | hv
            · exact hthis
            · exact hall v hv
          · refine Or.inr ⟨vec :: pre, v, post, sim, rfl, hsome, hv, fun v' hv' => ?_⟩
            rcases List.mem_cons.mp hv' with rfl | hv'
            · exact hthis
            · exact hpre v' hv'

/-- A choice of a size for each GPU, the last one first. -/
structure Choice (s : Scheduler) (v : List Nat) : Prop where
  length_eq : v.length = s.getMaxGPUs.toNat
  lt : ∀ i ∈ v, i < s.searchParts.length

/-- The partitioning of a choice. -/
def partitioning (s : Scheduler) (v : List Nat) : List NodeSize :=
  caseOf s.searchParts s.getMaxGPUs.toNat v

theorem possibleCases_eq (s : Scheduler) :
    fillPossibleCases2 s.searchParts [] s.getMaxGPUs.toNat =
      (IndexVectors.vectors s.searchParts.length s.getMaxGPUs.toNat).map s.partitioning := by
  rw [fillPossibleCases2, returnNodeList_eq]
  simp only [List.nil_append]
  rfl

theorem mem_choices {v : List Nat} :
    v ∈ IndexVectors.vectors s.searchParts.length s.getMaxGPUs.toNat ↔ s.Choice v :=
  IndexVectors.mem_vectors.trans ⟨fun h => ⟨h.1, h.2⟩, fun h => ⟨h.length_eq, h.lt⟩⟩

/-! ## The devices of a partitioning -/

theorem mem_setupAvailParts {input parts : List Int} (h : s.setupAvailParts input = .ok parts)
    {a : Int} : a ∈ parts ↔ a ≠ 0 ∧ (a ∈ input ∨ 100 - a ∈ input) := by
  simp only [setupAvailParts, Query.bind_ok, Query.pure_ok] at h
  obtain ⟨-, -, rfl⟩ := h
  rw [(s.stdSort.perm _ _).mem_iff, mem_foldl_addParts]
  simp

theorem searchParts_range {a : Int} (h : a ∈ s.searchParts) : 0 < a ∧ a ≤ 100 := by
  unfold searchParts at h
  split at h
  all_goals
    simp only [List.mem_cons, List.not_mem_nil, or_false] at h
    omega

theorem whole_mem_searchParts : 100 ∈ s.searchParts := by
  unfold searchParts
  split
  all_goals simp

theorem availParts_searchParts {parts : List Int}
    (h : s.setupAvailParts s.searchParts = .ok parts) : AvailParts parts := by
  refine setupAvailParts_ok h (fun p hp => ?_) (Or.inl whole_mem_searchParts)
  have hrange := searchParts_range hp
  exact ⟨hrange.1.le, hrange.2⟩

theorem size_of_mem_splitAt {gpuid a : Int} {z : NodeSize} (h : z ∈ splitAt gpuid a) :
    z.resourcePntg ≠ 0 ∧ (z.resourcePntg = a ∨ z.resourcePntg = 100 - a) := by
  obtain ⟨hmem, hne⟩ := List.mem_filter.mp h
  refine ⟨of_decide_eq_true hne, ?_⟩
  rcases List.mem_pair.mp hmem with rfl | rfl
  · exact Or.inl rfl
  · exact Or.inr rfl

/-- Every size in a partitioning is one of the sizes, or the rest of one. -/
theorem size_of_mem_caseOf {availpart : List Int} {n : Nat} {v : List Nat} {z : NodeSize}
    (hlt : ∀ i ∈ v, i < availpart.length) (h : z ∈ caseOf availpart n v) :
    z.resourcePntg ≠ 0 ∧ (z.resourcePntg ∈ availpart ∨ 100 - z.resourcePntg ∈ availpart) := by
  induction n generalizing v with
  | zero => cases v <;> cases h
  | succ n ih =>
      cases v with
      | nil => cases h
      | cons i v =>
          rcases List.mem_append.mp h with hz | hz
          · obtain ⟨hne, hsize⟩ := size_of_mem_splitAt hz
            have hi := hlt i List.mem_cons_self
            have hmem : availpart.getD i 0 ∈ availpart := by
              rw [List.getD_eq_getElem?_getD, List.getElem?_eq_getElem hi, Option.getD_some]
              exact List.getElem_mem hi
            refine ⟨hne, ?_⟩
            rcases hsize with heq | heq
            · exact Or.inl (by rwa [heq])
            · exact Or.inr (by rwa [heq, sub_sub_cancel])
          · exact ih (fun j hj => hlt j (List.mem_cons_of_mem i hj)) hz

theorem reset_laid {v : List Nat} (hparts : s.setupAvailParts s.searchParts = .ok s.availParts)
    (hone : s.typeToNumofTypeTable.length ≤ 1) (hpos : ∀ entry ∈ s.typeToNumofTypeTable, 0 < entry.2)
    (hv : s.Choice v) : Laid s (s.resetScheduler ⟨[], []⟩ (s.partitioning v)) := by
  have hnonneg : 0 ≤ s.getMaxGPUs := by
    refine List.sum_nonneg fun x hx => ?_
    obtain ⟨entry, hentry, rfl⟩ := List.mem_map.mp hx
    exact (hpos entry hentry).le
  have hcase : s.partitioning v ∈ fillPossibleCases2 s.searchParts [] s.getMaxGPUs.toNat := by
    rw [possibleCases_eq]
    exact List.mem_map_of_mem (mem_choices.mpr hv)
  have hrange : ∀ a ∈ s.searchParts, 0 ≤ a ∧ a ≤ 100 := fun a ha =>
    ⟨(searchParts_range ha).1.le, (searchParts_range ha).2⟩
  have hempty : (⟨[], []⟩ : SimState).vGPUList = [] := rfl
  have hshaped := resetScheduler_shaped hrange hempty hpos (Int.toNat_of_nonneg hnonneg).symm hone
    hcase
  refine ⟨fun i g hg => ⟨hshaped i g hg, ?_, ?_⟩, ?_⟩
  all_goals try obtain ⟨type, rfl⟩ := resetScheduler_one rfl hone hg
  · intro n hn
    obtain ⟨z, hz, rfl⟩ := List.mem_map.mp hn
    obtain ⟨hne, hsize⟩ := size_of_mem_caseOf hv.lt (List.mem_filter.mp hz).1
    exact (mem_setupAvailParts hparts).mpr ⟨hne, hsize⟩
  · intro n hn t ht
    obtain ⟨z, -, rfl⟩ := List.mem_map.mp hn
    cases ht
  · rw [← resetScheduler_types hempty, List.length_map]

theorem Tried.laid {v : List Nat} {out : SimState}
    (h : Tried s tasks table (s.partitioning v) .success out) (hbuilt : Built s table)
    (hparts : s.setupAvailParts s.searchParts = .ok s.availParts)
    (hone : s.typeToNumofTypeTable.length ≤ 1) (hpos : ∀ entry ∈ s.typeToNumofTypeTable, 0 < entry.2)
    (hprofile : ProfileRange s) (hids : KnownIds (tasks.map (·.id))) (hv : s.Choice v) :
    Laid s out := by
  obtain ⟨input, o, hmems, hrun, hret, rfl⟩ := h
  have hlasting := laid_lasting (availParts_searchParts hparts) hprofile
  have hinput : Laid s input :=
    hlasting.frame (SimState.layout_initDevMems hmems) (reset_laid hparts hone hpos hv)
  exact (hlasting.run (n := s.numMaxGPU) hbuilt hids hinput hrun).2.2.2 hret

/-- How a full search ends. -/
inductive SearchEnd (s : Scheduler) (tasks : List Task) (table : SatTable) : Option SimState → Prop
  | empty (hall : ∀ v, s.Choice v →
      Tried s tasks table (s.partitioning v) .failure ⟨[], []⟩) : SearchEnd s tasks table none
  | first {v : List Nat} {sim : SimState} (hv : s.Choice v)
      (hbefore : ∀ v', s.Choice v' → v' < v →
        Tried s tasks table (s.partitioning v') .failure ⟨[], []⟩)
      (htried : Tried s tasks table (s.partitioning v) .success sim)
      (hfollows : Follows s (s.partitioning v) sim) (hlaid : Laid s sim) :
      SearchEnd s tasks table (some sim)

theorem search_ends {found : Option SimState}
    (hparts : s.setupAvailParts s.searchParts = .ok s.availParts)
    (hone : s.typeToNumofTypeTable.length ≤ 1) (hpos : ∀ entry ∈ s.typeToNumofTypeTable, 0 < entry.2)
    (hprofile : ProfileRange s) (hids : KnownIds (tasks.map (·.id)))
    (hrun : s.search true tasks = .ok found) :
    ∃ table, s.initSaturateTrps tasks (fun _ => none) = .ok table ∧ SearchEnd s tasks table found := by
  obtain ⟨simulator, -, hrun⟩ := Query.bind_ok.mp hrun
  obtain ⟨table, htable, hrun⟩ := Query.bind_ok.mp hrun
  refine ⟨table, htable, ?_⟩
  obtain ⟨hbuilt, hrows, -⟩ := initSaturateTrps_rows .empty htable
  rw [if_pos rfl, possibleCases_eq] at hrun
  rcases tryCases_first hbuilt hrows hrun with
    ⟨rfl, hall⟩ | ⟨pre, vec, post, sim, hcases, rfl, htried, hpre⟩
  · exact .empty fun v hv => hall _ (List.mem_map_of_mem (mem_choices.mpr hv))
  · obtain ⟨vs, rest, hvectors, rfl, hrest⟩ := List.map_eq_append_iff.mp hcases
    obtain ⟨v, ws, rfl, rfl, rfl⟩ := List.map_eq_cons_iff.mp hrest
    have hv : s.Choice v := mem_choices.mp (by rw [hvectors]; simp)
    refine .first hv (fun v' hv' hlt => ?_) htried (htried.follows hbuilt hone)
      (htried.laid hbuilt hparts hone hpos hprofile hids hv)
    have hsorted := IndexVectors.vectors_sorted s.searchParts.length s.getMaxGPUs.toNat
    rw [hvectors] at hsorted
    have hmem := mem_choices.mpr hv'
    rw [hvectors] at hmem
    rcases List.mem_append.mp hmem with hmem | hmem
    · exact hpre _ (List.mem_map_of_mem hmem)
    · rcases List.mem_cons.mp hmem with rfl | hmem
      · exact absurd hlt (lt_irrefl _)
      · have hgt := (List.pairwise_cons.mp (List.pairwise_append.mp hsorted).2.1).1 v' hmem
        exact absurd hlt (lt_asymm hgt)

/-- **Full search.** With devices of one type, the decision is that of the first
choice, in lexicographic order, for which a call of `runScheduling` succeeds. It
has the partitioning of this choice, and can be routed. EMPTY is written only if
the calls for all choices fail. -/
theorem full_search_first {parts : List Int} {found : Option SimState}
    (hparts : s.setupAvailParts s.searchParts = .ok parts)
    (hone : s.typeToNumofTypeTable.length ≤ 1) (hpos : ∀ entry ∈ s.typeToNumofTypeTable, 0 < entry.2)
    (hprofile : ProfileRange (s.withAvailParts parts)) (hids : KnownIds (tasks.map (·.id)))
    (hrun : s.standalone true tasks = .ok found) :
    ∃ table, (s.withAvailParts parts).initSaturateTrps tasks (fun _ => none) = .ok table ∧
      SearchEnd (s.withAvailParts parts) tasks table found := by
  rw [standalone, hparts, Query.ok_bind] at hrun
  exact search_ends (s := s.withAvailParts parts) hparts hone hpos hprofile hids hrun

/-- One GPU, on which batches are slow below 60 percent. -/
def slowHalves : Scheduler :=
  plain (profile [100, 80, 60, 50, 40, 20] fun batch part =>
    if 60 ≤ part then 4 * batch else 30 * batch) [100, 80, 60, 50, 40, 20] 1

/-- Halves are tried first, and do not do. -/
theorem full_search_first_split :
    ∃ sim table, slowHalves.standalone true [request 0 150 30] = .ok (some sim) ∧
      sim.sizes = [(0, "gpu", [(60, 0), (40, 0)])] ∧
      SearchEnd slowHalves [request 0 150 30] table (some sim) := by
  have htest : ((slowHalves.standalone true [request 0 150 30]).toOption.join.any fun sim =>
      decide (sim.sizes = [(0, "gpu", [(60, 0), (40, 0)])])) = true := by decide +kernel
  obtain ⟨sim, hjoin, hsizes⟩ := (Option.any_eq_true _ _).mp htest
  have hrun : slowHalves.standalone true [request 0 150 30] = .ok (some sim) := by
    cases hres : slowHalves.standalone true [request 0 150 30] with
    | error e =>
        rw [hres] at hjoin
        cases hjoin
    | ok found =>
        rw [hres] at hjoin
        exact congrArg Except.ok hjoin
  have hids : KnownIds ([request 0 150 30].map (·.id)) := by
    intro id hid
    obtain rfl := List.mem_singleton.mp hid
    exact ⟨.lenet1, rfl⟩
  have hparts : slowHalves.setupAvailParts slowHalves.searchParts = .ok [100, 80, 60, 50, 40, 20] := by
    decide +kernel
  have hprofile : ProfileRange slowHalves := profileRange_plain _ _ _
  obtain ⟨table, -, hend⟩ := full_search_first hparts (by decide) (by decide) hprofile hids hrun
  exact ⟨sim, table, hrun, of_decide_eq_true hsizes, hend⟩

end Glet.Scheduler
