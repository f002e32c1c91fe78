import Glet.BestFit
import Glet.Partition

/-!
# Vacancies

A vacancy is a free node that `checkForInterference` does not reject. With
interference off and the memory checks passing, `findBestFit` chooses among
the vacancies that are large enough (`findBestFit_vacancy`).
-/

namespace Glet

/-! ## The other node of a GPU -/

/-- The address of the other node of the GPU. -/
def Addr.other (a : Addr) : Addr := ⟨a.gpu, 1 - a.node⟩

theorem filter_index {α : Type} {l : List α} {f : α → Nat} {i : Nat} {x : α}
    (hf : ∀ j y, l[j]? = some y → f y = j) (h : l[i]? = some x) :
    (l.filter fun y => f y == i) = [x] := by
  obtain ⟨hlt, hx⟩ := List.getElem?_eq_some_iff.mp h
  have hbefore : ((l.take i).filter fun y => f y == i) = [] := by
    rw [List.filter_eq_nil_iff]
    intro y hy
    obtain ⟨j, hj⟩ := List.mem_iff_getElem?.mp hy
    have hji : j < i := by
      have := (List.getElem?_eq_some_iff.mp hj).1
      rw [List.length_take] at this
      omega
    rw [List.getElem?_take_of_lt hji] at hj
    have := hf j y hj
    simp only [beq_iff_eq]
    omega
  have hafter : ((l.drop (i + 1)).filter fun y => f y == i) = [] := by
    rw [List.filter_eq_nil_iff]
    intro y hy
    obtain ⟨j, hj⟩ := List.mem_iff_getElem?.mp hy
    rw [List.getElem?_drop] at hj
    have := hf _ y hj
    simp only [beq_iff_eq]
    omega
  have hself : (f x == i) = true := by simp [hf i x h]
  conv_lhs => rw [← List.take_append_drop i l]
  rw [List.drop_eq_getElem_cons hlt, hx, List.filter_append, List.filter_cons, hbefore, hafter,
    if_pos hself, List.nil_append]

variable {sim : SimState} {a : Addr} {n : Node}

/-- A GPU has at most the addresses 0 and 1. -/
theorem AllGPUs.node_lt (h : AllGPUs ShapedGPU sim) (hn : sim.node? a = some n) : a.node < 2 := by
  obtain ⟨g, hg, hj⟩ := SimState.gpu_of_node? hn
  have hlen := (h a.gpu g hg).split.length
  rw [List.length_map] at hlen
  have := (List.getElem?_eq_some_iff.mp hj).1
  omega

theorem Split.size_mem {l : List (Int × Int)} (h : Split l) {k : Int × Int} (hk : k ∈ l) :
    1 ≤ k.1 ∧ k.1 ≤ 100 := by
  cases h with
  | whole =>
      obtain rfl := List.mem_singleton.mp hk
      decide
  | parts h0 h1 =>
      simp only [List.mem_cons, List.not_mem_nil, or_false] at hk
      rcases hk with rfl | rfl
      · exact ⟨by omega, by omega⟩
      · exact ⟨by omega, by omega⟩

/-- `getOtherNode` reads the other address. -/
theorem getOtherNode_eq (h : AllGPUs ShapedGPU sim) (hn : sim.node? a = some n) :
    getOtherNode n sim = sim.node? a.other := by
  obtain ⟨i, j⟩ := a
  obtain ⟨g, hg, hj⟩ := SimState.gpu_of_node? hn
  have hshape := h i g hg
  have hid : n.id = i := hshape.id_eq n (List.mem_of_getElem? hj)
  have hfilter : (sim.vGPUList.filter fun g => g.GPUID == i) = [g] :=
    filter_index (fun k x hx => (h k x hx).GPUID_eq) hg
  have hother : sim.node? (Addr.other ⟨i, j⟩) = g.vNodeList[1 - j]? := by
    simp [Addr.other, SimState.node?, hg]
  rw [getOtherNode, hid, hfilter, hother, List.flatMap_singleton]
  have hsame : ∀ m ∈ g.vNodeList, isSameNode n m = decide (n.key = m.key) := by
    intro m hm
    simp [isSameNode, Node.key, hid, hshape.id_eq m hm, Bool.decide_and, Bool.beq_eq_decide_eq]
  have hnodup := hshape.split.nodup
  have hlen := hshape.split.length
  rw [List.length_map] at hlen
  rcases hl : g.vNodeList with _ | ⟨x, _ | ⟨y, _ | ⟨z, zs⟩⟩⟩
  · simp [hl] at hlen
  · rw [hl] at hj hsame
    obtain ⟨rfl, rfl⟩ : j = 0 ∧ x = n := by
      cases j with
      | zero => exact ⟨rfl, Option.some.inj hj⟩
      | succ j => simp at hj
    simp [hsame x (List.mem_singleton.mpr rfl)]
  · rw [hl] at hj hsame hnodup
    have hne : x.key ≠ y.key := by simpa using hnodup
    have hx := hsame x (List.mem_cons_self ..)
    have hy := hsame y (List.mem_cons_of_mem x (List.mem_singleton.mpr rfl))
    rcases j with _ | _ | j
    · obtain rfl := Option.some.inj hj
      simp [hx, hy, hne]
    · obtain rfl := Option.some.inj hj
      simp [hx, hne.symm]
    · simp at hj
  · simp [hl] at hlen

/-! ## Vacancies -/

namespace Scheduler

open LastMin

variable {s : Scheduler} {type : DeviceType} {input node : Node} {exclude : List Addr} {x : Int}

/-- The size of the free node at `a`, on a GPU of the type, that
`checkForInterference` does not reject. -/
def vacancy (s : Scheduler) (sim : SimState) (type : DeviceType) (a : Addr) : Option Int :=
  match sim.vGPUList[a.gpu]?, sim.node? a with
  | some gpu, some node =>
      if gpu.TYPE = type ∧ node.vTaskList = [] ∧
          (s.checkForInterference type node sim).returns id = false then some node.resourcePntg
      else none
  | _, _ => none

/-- The check reads the other node of the GPU. -/
theorem checkForInterference_eq (h : AllGPUs ShapedGPU sim) (hn : sim.node? a = some node) :
    s.checkForInterference type node sim =
      if node.resourcePntg = 100 then .ok false
      else (sim.node? a.other).elim (.ok false) fun m => s.neighbourDisturbed type m m.vTaskList := by
  rw [checkForInterference, getOtherNode_eq h hn]
  cases sim.node? a.other <;> rfl

theorem returns_false_iff {q : Query Bool} : q.returns id = false ↔ q ≠ .ok true := by
  cases q with
  | error e => simp [Query.returns]
  | ok b => cases b <;> simp [Query.returns]

theorem vacancy_iff : s.vacancy sim type a = some x ↔
    ∃ gpu node, sim.vGPUList[a.gpu]? = some gpu ∧ sim.node? a = some node ∧ gpu.TYPE = type ∧
      node.vTaskList = [] ∧ s.checkForInterference type node sim ≠ .ok true ∧
      node.resourcePntg = x := by
  unfold vacancy
  constructor
  · intro h
    split at h
    case h_2 => cases h
    case h_1 gpu node hgpu hnode =>
      split at h
      case isFalse => cases h
      case isTrue hopen =>
        exact ⟨gpu, node, hgpu, hnode, hopen.1, hopen.2.1, returns_false_iff.mp hopen.2.2,
          Option.some.inj h⟩
  · rintro ⟨gpu, node, hgpu, hnode, htype, hempty, hcheck, rfl⟩
    simp only [hgpu, hnode]
    exact if_pos ⟨htype, hempty, returns_false_iff.mpr hcheck⟩

theorem vacancy_addr (h : s.vacancy sim type a = some x) : a ∈ sim.addrs ∧ partAt sim a = x := by
  obtain ⟨gpu, node, -, hnode, -, -, -, rfl⟩ := vacancy_iff.mp h
  exact ⟨SimState.mem_addrs.mpr ⟨node, hnode⟩, by simp [partAt, hnode]⟩

theorem vacancy_none (h : sim.node? a = none) : s.vacancy sim type a = none := by
  unfold vacancy
  rw [h]
  split
  case h_1 hnode => cases hnode
  case h_2 => rfl

theorem vacancy_type_ne {type' : DeviceType} (h : s.vacancy sim type a = some x)
    (hne : type' ≠ type) : s.vacancy sim type' a = none := by
  rw [Option.eq_none_iff_forall_ne_some]
  intro y hy
  obtain ⟨gpu, -, hgpu, -, rfl, -⟩ := vacancy_iff.mp h
  obtain ⟨gpu', -, hgpu', -, rfl, -⟩ := vacancy_iff.mp hy
  exact hne (congrArg GPU.TYPE (Option.some.inj (hgpu'.symm.trans hgpu)))

/-! ## The best fit is a vacancy -/

/-- Latency does not grow with the partition. -/
structure LatencyFalls (s : Scheduler) : Prop where
  le : ∀ {device id batch p q v w}, p ≤ q → s.soloLatency device id batch p = .ok v →
    s.soloLatency device id batch q = .ok w → w ≤ v

/-- A gpu-let of one task that meets its SLO at its own partition size. -/
structure MeetsOwnSLO (s : Scheduler) (input : Node) : Prop where
  pos : 0 < input.resourcePntg
  slo : ∃ task v, input.vTaskList = [task] ∧
    s.soloLatency input.type task.id task.batchSize input.resourcePntg = .ok v ∧
    v + s.dutyOf input ≤ task.SLO

/-- No memory check for the tasks of a gpu-let fails on any node. -/
def MemoryPasses (s : Scheduler) (sim : SimState) (input : Node) : Prop :=
  s.checkMem = true → ∀ gpu ∈ sim.vGPUList, ∀ node ∈ gpu.vNodeList, ∀ task ∈ input.vTaskList,
    s.doesFitMemLimit gpu task.id node ≠ .ok false

/-- A vacancy that is large enough, and not excluded. -/
def suits (s : Scheduler) (sim : SimState) (input : Node) (exclude : List Addr) (a : Addr) : Bool :=
  decide (a ∉ exclude) && (s.vacancy sim input.type a).any fun x => decide (input.resourcePntg ≤ x)

theorem suits_iff : s.suits sim input exclude a = true ↔
    a ∉ exclude ∧ ∃ x, s.vacancy sim input.type a = some x ∧ input.resourcePntg ≤ x := by
  simp [suits, Option.any_eq_true]

/-- With interference off and enough memory `fitsNode` is the neighbour
check. -/
theorem fitsNode_eq {gpu : GPU} {task : Task} {ok : Bool} (hoff : s.useInterference = false)
    (hfalls : LatencyFalls s) (hin : MeetsOwnSLO s input) (hmem : MemoryPasses s sim input)
    (hgpu : gpu ∈ sim.vGPUList) (hnode : node ∈ gpu.vNodeList) (htask : input.vTaskList = [task])
    (hpart : input.resourcePntg ≤ node.resourcePntg)
    (h : s.fitsNode sim input task gpu node = .ok ok) :
    ok = true ↔ s.checkForInterference input.type node sim ≠ .ok true := by
  obtain ⟨task', v, htask', hv, hle⟩ := hin.slo
  obtain rfl : task = task' := by simpa using htask.symm.trans htask'
  have hrest : (do
      let latency ← s.getLatencyOn input.type task.id task.batchSize node sim
      if true && decide (latency + s.dutyOf input ≤ task.SLO) then
        let disturbed ← s.checkForInterference input.type node sim
        return !disturbed
      else return false : Query Bool) = .ok ok := by
    unfold fitsNode at h
    split at h
    case isTrue hc =>
      obtain ⟨memOK, hmemOK, h⟩ := Query.bind_ok.mp h
      cases memOK with
      | true => exact h
      | false => exact absurd hmemOK (hmem hc gpu hgpu node hnode task (by simp [htask]))
    case isFalse => exact h
  obtain ⟨w, hw, hrest⟩ := Query.bind_ok.mp hrest
  have hfit : w + s.dutyOf input ≤ task.SLO := by
    obtain ⟨-, -, hw⟩ := Query.bind_ok.mp hw
    obtain ⟨-, -, hw⟩ := Query.bind_ok.mp hw
    rw [if_neg (by simp [hoff])] at hw
    have := hfalls.le hpart hv hw
    linarith
  rw [if_pos (by simp [hfit])] at hrest
  obtain ⟨disturbed, hdist, hrest⟩ := Query.bind_ok.mp hrest
  obtain rfl := Query.pure_ok.mp hrest
  rw [hdist]
  simp

theorem tryNode_eq {ok : Bool} (hoff : s.useInterference = false) (hfalls : LatencyFalls s)
    (hin : MeetsOwnSLO s input) (hmem : MemoryPasses s sim input)
    (h : s.tryNode sim input exclude a = .ok ok) : ok = s.suits sim input exclude a := by
  obtain ⟨task, -, htask, -⟩ := hin.slo
  rw [Bool.eq_iff_iff, suits_iff]
  unfold tryNode at h
  split at h
  case h_2 => cases h
  case h_1 gpu node hgpu hnode =>
    split at h
    case isTrue hskip =>
      obtain rfl := Except.ok.inj h
      simp only [Bool.false_eq_true, false_iff, not_and, not_exists]
      intro hexcl x hx
      obtain ⟨gpu', node', hgpu', hnode', htype, hempty, -, rfl⟩ := vacancy_iff.mp hx
      obtain rfl := Option.some.inj (hgpu.symm.trans hgpu')
      obtain rfl := Option.some.inj (hnode.symm.trans hnode')
      rcases hskip with hne | hlt | hbusy | hin
      · exact absurd htype hne
      · omega
      · exact absurd hempty hbusy
      · exact absurd hin hexcl
    case isFalse hskip =>
      simp only [not_or, not_not, not_lt] at hskip
      obtain ⟨htype, hpart, hempty, hexcl⟩ := hskip
      rw [htask] at h
      obtain ⟨g, hg, hj⟩ := SimState.gpu_of_node? hnode
      obtain rfl := Option.some.inj (hgpu.symm.trans hg)
      rw [fitsNode_eq hoff hfalls hin hmem (List.mem_of_getElem? hg) (List.mem_of_getElem? hj) htask
        hpart h]
      constructor
      · intro hcheck
        exact ⟨hexcl, _, vacancy_iff.mpr ⟨gpu, node, hgpu, hnode, htype, hempty, hcheck, rfl⟩, hpart⟩
      · rintro ⟨-, x, hx, -⟩
        obtain ⟨gpu', node', -, hnode', -, -, hcheck, -⟩ := vacancy_iff.mp hx
        obtain rfl := Option.some.inj (hnode.symm.trans hnode')
        exact hcheck

/-- A search that returns has made all its tests. -/
theorem bestFitLoop_tests {as : List Addr} {acc r : Int × Option Addr} (hacc : 0 ≤ acc.1)
    (h : s.bestFitLoop sim input exclude as acc = .ok r) :
    ∀ b ∈ as, ∃ ok, s.tryNode sim input exclude b = .ok ok := by
  induction as generalizing acc with
  | nil => simp
  | cons a as ih =>
      rw [bestFitLoop_cons hacc] at h
      obtain ⟨ok, hok, h⟩ := Query.bind_ok.mp h
      intro b hb
      rcases List.mem_cons.mp hb with rfl | hb
      · exact ⟨ok, hok⟩
      · refine ih ?_ h b hb
        split
        case isTrue hcond =>
          rw [hcond.1] at hok
          exact bestFitRank_nonneg hok
        case isFalse => exact hacc

/-- `findBestFit` chooses among the vacancies that are large enough. -/
theorem findBestFit_vacancy {r : Option Addr} (hoff : s.useInterference = false)
    (hfalls : LatencyFalls s) (hshape : AllGPUs ShapedGPU sim) (hin : MeetsOwnSLO s input)
    (hmem : MemoryPasses s sim input) (h : s.findBestFit sim input exclude = .ok r) :
    r = lastMin (s.bestFitRank sim input) (sim.addrs.filter (s.suits sim input exclude)) := by
  have hsizes : Sizes sim input := by
    refine ⟨fun n hn => ?_, by have := hin.pos; omega⟩
    obtain ⟨a, ha⟩ := SimState.mem_nodes.mp hn
    obtain ⟨g, hg, hj⟩ := SimState.gpu_of_node? ha
    exact (hshape _ g hg).split.size_mem (List.mem_map_of_mem (List.mem_of_getElem? hj))
  have htests : ∀ b ∈ sim.addrs, ∃ ok, s.tryNode sim input exclude b = .ok ok := by
    obtain ⟨acc, hloop, -⟩ := Query.bind_ok.mp h
    exact bestFitLoop_tests (by decide) hloop
  rw [findBestFit_eq hsizes h, fitting]
  congr 1
  refine List.filter_congr fun b hb => ?_
  obtain ⟨ok, hok⟩ := htests b hb
  rw [hok, ← tryNode_eq hoff hfalls hin hmem hok]
  rfl

end Scheduler

end Glet
