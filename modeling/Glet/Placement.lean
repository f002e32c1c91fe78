import Glet.Vacancy
import Glet.AllocateFit

/-!
# One turn of `allocateFit`

With interference off a turn that succeeds puts a gpu-let on the node
`findBestFit` found and, when it splits a whole GPU, the rest at the other
address (`Placement`). It takes that vacancy, leaves the rest as a new one and
keeps all others (`vacancy_keep`).
-/

namespace Glet

open Recorder

/-! ## GPUs as the search reads them -/

/-- What the search and the neighbour check read of a GPU: id, type and nodes. -/
def SimState.view (sim : SimState) (i : Nat) : Option (Nat × DeviceType × List Node) :=
  (sim.vGPUList[i]?).map fun g => (g.GPUID, g.TYPE, g.vNodeList)

theorem SimState.node?_view (sim : SimState) (a : Addr) :
    sim.node? a = (sim.view a.gpu).bind fun g => g.2.2[a.node]? := by
  cases h : sim.vGPUList[a.gpu]? <;> simp [SimState.node?, SimState.view, h]

theorem SimState.view_setNode {sim : SimState} {a : Addr} {n : Node} (i : Nat) :
    (sim.setNode a n).view i =
      if i = a.gpu then (sim.view i).map fun g => (g.1, g.2.1, g.2.2.set a.node n)
      else sim.view i := by
  simp only [view, setNode, getElem?_modifyGPU, eq_comm (a := a.gpu)]
  split
  · cases sim.vGPUList[i]? <;> rfl
  · rfl

theorem SimState.view_pushNode {sim : SimState} {j : Nat} {n : Node} (i : Nat) :
    (sim.pushNode j n).view i =
      if i = j then (sim.view i).map fun g => (g.1, g.2.1, g.2.2 ++ [n]) else sim.view i := by
  simp only [view, pushNode, getElem?_modifyGPU, eq_comm (a := j)]
  split
  · cases sim.vGPUList[i]? <;> rfl
  · rfl

namespace Scheduler

/-! ## The turn -/

variable {s : Scheduler} {sim sim' : SimState} {input best placed node : Node} {gpu : GPU} {a : Addr}
  {r r' : Rec Core Action}

/-- A gpu-let on a whole node splits it when partitions may change. -/
def splits (s : Scheduler) (best input : Node) : Bool :=
  decide (best.resourcePntg = 100 ∧ input.resourcePntg < 100) && s.useRepartition

/-- One turn of `allocateFit` put a gpu-let for `input` on the node `best`. -/
structure Placement (s : Scheduler) (sim sim' : SimState) (input : Node) (a : Addr) (gpu : GPU)
    (best placed : Node) : Prop where
  gpu_eq : sim.vGPUList[a.gpu]? = some gpu
  best_eq : gpu.vNodeList[a.node]? = some best
  id_eq : placed.id = best.id
  key_eq : placed.key =
    (if s.splits best input then input.resourcePntg else best.resourcePntg, best.dedupNum)
  busy : ∃ t, placed.vTaskList = [t]
  view_eq : ∀ i, sim'.view i =
    if i = a.gpu then some (gpu.GPUID, gpu.TYPE, gpu.vNodeList.set a.node placed ++
      if s.splits best input then [restNode best input.resourcePntg] else [])
    else sim.view i

theorem addGPUMemUsage_view {u : Unit} (h : s.addGPUMemUsage a r = .ok (u, r')) (i : Nat) :
    r'.cur.sim.view i = r.cur.sim.view i := by
  unfold addGPUMemUsage at h
  split at h
  case isFalse =>
    obtain ⟨-, rfl⟩ := pure_end h
    rfl
  case isTrue =>
    obtain ⟨n, -, h⟩ := getNode_bind h
    obtain ⟨gpu, -, h⟩ := getGPU_bind (getTask_bind h)
    obtain ⟨o, -, h⟩ := query_bind h
    cases o with
    | none =>
        obtain rfl := act_end h
        exact Action.quiet_gpu _ _ rfl i
    | some p =>
        obtain rfl := act_end h
        exact Action.quiet_gpu _ _ rfl i

theorem placeFit_view {m n : Node} {checked : Bool} (hoff : s.useInterference = false)
    (hm : r.cur.sim.node? a = some m)
    (h : s.placeFit a n checked r = .ok (.success, r')) :
    (∃ t, n.vTaskList = [t]) ∧ ∀ i, r'.cur.sim.view i =
      (r.cur.sim.setNode a (copyToNode n m s.useRepartition)).view i := by
  obtain ⟨r2, r3, hmem, hadj, hend⟩ := placeFit_cases h
  have hview : ∀ i, r2.cur.sim.view i =
      (r.cur.sim.setNode a (copyToNode n m s.useRepartition)).view i := by
    intro i
    rw [addGPUMemUsage_view hmem i]
    simp only [Prog.after_cur, Action.apply, Core.write_of_node hm]
  obtain rfl : r3 = r2 := by
    rcases (adjustFit_ok hadj).2 with hon | ⟨-, hsame⟩
    · rw [hoff] at hon
      cases hon
    · exact hsame
  obtain ⟨hfailed, -⟩ | ⟨-, k, t, hk, ht, rfl⟩ := hend
  · cases hfailed
  have hkn : k = copyToNode n m s.useRepartition := by
    rw [SimState.node?_view, hview, ← SimState.node?_view, SimState.node?_setNode_self hm] at hk
    exact (Option.some.inj hk).symm
  refine ⟨⟨t, by simpa [hkn, copyToNode] using ht⟩, fun i => ?_⟩
  rw [← hview i]
  exact Action.quiet_gpu _ _ rfl i

theorem resizeInput_part {n : Node} {pntg : Int} (h : s.resizeInput sim input pntg = .ok (some n)) :
    n.resourcePntg = pntg := by
  rcases hlist : input.vTaskList with _ | ⟨task, _ | ⟨_, _⟩⟩
  case nil =>
    rw [resizeInput, hlist] at h
    cases h
  case cons.cons =>
    rw [resizeInput, hlist] at h
    cases h
  case cons.nil =>
    simp only [resizeInput, hlist, Query.bind_ok, Prod.exists] at h
    obtain ⟨batch, rate, -, h⟩ := h
    split at h
    case isTrue => cases Query.pure_ok.mp h
    case isFalse =>
      obtain ⟨latency, -, h⟩ := Query.bind_ok.mp h
      split at h
      all_goals
        obtain ⟨period, -, h⟩ := Query.bind_ok.mp h
        obtain ⟨throughput, -, h⟩ := Query.bind_ok.mp h
        obtain ⟨occupancy, -, h⟩ := Query.bind_ok.mp h
        obtain rfl := Option.some.inj (Query.pure_ok.mp h)
        rfl

/-- The gpu-let took the node as it is. -/
theorem Placement.whole_node (hgpu : sim.vGPUList[a.gpu]? = some gpu)
    (hj : gpu.vNodeList[a.node]? = some best) (hsplits : s.splits best input = false)
    (hid : placed.id = best.id) (hkey : placed.key = best.key) (hbusy : ∃ t, placed.vTaskList = [t])
    (hafter : ∀ i, sim'.view i = (sim.setNode a placed).view i) :
    Placement s sim sim' input a gpu best placed := by
  refine ⟨hgpu, hj, hid, ?_, hbusy, fun i => ?_⟩
  · rw [hkey, if_neg (by simp [hsplits])]
    rfl
  · rw [hafter, SimState.view_setNode, hsplits, if_neg Bool.false_ne_true, List.append_nil]
    split
    case isTrue heq => simp [heq, SimState.view, hgpu]
    case isFalse => rfl

/-- The gpu-let split the node first. -/
theorem Placement.split_node {m : Node} (hgpu : sim.vGPUList[a.gpu]? = some gpu)
    (hj : gpu.vNodeList[a.node]? = some best) (hsplits : s.splits best input = true)
    (hid : placed.id = best.id) (hkey : placed.key = (input.resourcePntg, best.dedupNum))
    (hbusy : ∃ t, placed.vTaskList = [t])
    (hafter : ∀ i, sim'.view i = (((sim.setNode a m).pushNode a.gpu
      (restNode best input.resourcePntg)).setNode a placed).view i) :
    Placement s sim sim' input a gpu best placed := by
  have hlt := (List.getElem?_eq_some_iff.mp hj).1
  refine ⟨hgpu, hj, hid, ?_, hbusy, fun i => ?_⟩
  · rw [hkey, if_pos hsplits]
  · rw [hafter, SimState.view_setNode, SimState.view_pushNode, SimState.view_setNode,
      if_pos hsplits]
    split
    case isTrue heq => simp [heq, SimState.view, hgpu, List.set_append_left, hlt]
    case isFalse => rfl

/-- A turn of `allocateFit` that succeeds places a gpu-let on the node found
by `findBestFit`. -/
theorem allocateFitOne_placement (hoff : s.useInterference = false)
    (hshape : AllGPUs ShapedGPU r.cur.sim)
    (h : s.allocateFitOne input r = .ok (.success, r')) :
    ∃ a gpu best placed, s.findBestFit r.cur.sim input [] = .ok (some a) ∧
      Placement s r.cur.sim r'.cur.sim input a gpu best placed := by
  rcases allocateFitOne_cases h with ⟨hfailed, -⟩ | ⟨a, best, n, checked, r0, hfound, hbest, hpath, h⟩
  · cases hfailed
  obtain ⟨gpu, m, task, w, hgpu, hm, -, hpart, -⟩ := findBestFit_ok hfound
  obtain rfl : best = m := Option.some.inj (hbest.symm.trans hm)
  obtain ⟨g, hg, hj⟩ := SimState.gpu_of_node? hbest
  obtain rfl := Option.some.inj (hgpu.symm.trans hg)
  have hid : best.id = a.gpu := (hshape _ gpu hgpu).id_eq best (List.mem_of_getElem? hj)
  cases hpath with
  | grow hless hmore hres =>
      have hsplits : s.splits best input = false := by simp [splits, hless]
      obtain ⟨⟨t, ht⟩, hafter⟩ := placeFit_view hoff hbest h
      exact ⟨a, gpu, best, copyToNode n best s.useRepartition, hfound,
        .whole_node hgpu hj hsplits rfl (by simp [Node.key, copyToNode, resizeInput_part hres])
          ⟨t, ht⟩ hafter⟩
  | @split gpu' hwhole hless hrepart hgpu' =>
      have hsplits : s.splits best input = true := by simp [splits, hwhole, hless, hrepart]
      have hsim : (s.did (.split a input.resourcePntg) r).cur.sim =
          (r.cur.sim.setNode a { best with resourcePntg := input.resourcePntg }).pushNode
            a.gpu (restNode best input.resourcePntg) := by
        simp only [Prog.after_cur, Action.apply, hbest, hid]
      obtain ⟨⟨t, ht⟩, hafter⟩ :=
        placeFit_view hoff (split_placed input.resourcePntg hbest hgpu') h
      rw [hsim] at hafter
      exact ⟨a, gpu, best, copyToNode input { best with resourcePntg := input.resourcePntg }
        s.useRepartition, hfound, .split_node hgpu hj hsplits rfl (by simp [Node.key, copyToNode])
          ⟨t, ht⟩ hafter⟩
  | keep hgrow hsplit =>
      have hsplits : s.splits best input = false :=
        eq_false_of_ne_true fun h => hsplit (by simpa [splits] using h)
      obtain ⟨⟨t, ht⟩, hafter⟩ := placeFit_view hoff hbest h
      have hkey : (copyToNode input best s.useRepartition).key = best.key := by
        simp only [Node.key, copyToNode, Prod.mk.injEq, and_true]
        split
        case isTrue hre => exact part_eq_of_kept hpart hgrow hsplit hre
        case isFalse => rfl
      exact ⟨a, gpu, best, copyToNode input best s.useRepartition, hfound,
        .whole_node hgpu hj hsplits rfl hkey ⟨t, ht⟩ hafter⟩

/-! ## What a placement changes -/

namespace Placement

variable {b : Addr} {type : DeviceType}

theorem best_at (h : Placement s sim sim' input a gpu best placed) : sim.node? a = some best :=
  SimState.node?_of_gpu h.gpu_eq h.best_eq

/-- Only the single node of a whole GPU is split. -/
theorem single (h : Placement s sim sim' input a gpu best placed) (hshape : AllGPUs ShapedGPU sim)
    (hsplits : s.splits best input = true) :
    gpu.vNodeList = [best] ∧ a.node = 0 ∧ best.dedupNum = 0 := by
  simp only [splits, Bool.and_eq_true, decide_eq_true_eq] at hsplits
  have hmem := List.mem_of_getElem? h.best_eq
  have hkeys : gpu.vNodeList.map Node.key = [(100, 0)] := by
    refine (hshape _ gpu h.gpu_eq).split.whole_of_mem (d := best.dedupNum)
      (List.mem_map.mpr ⟨best, hmem, ?_⟩)
    rw [Node.key, hsplits.1.1]
  obtain ⟨m, hm⟩ := List.length_eq_one_iff.mp (by simpa using congrArg List.length hkeys :
    gpu.vNodeList.length = 1)
  have hbest := h.best_eq
  rw [hm] at hbest hkeys
  obtain ⟨hlt, rfl⟩ := List.getElem?_eq_some_iff.mp hbest
  simp only [List.length_singleton, Nat.lt_one_iff] at hlt
  simp only [hlt, List.getElem_cons_zero] at hkeys ⊢
  refine ⟨hm, trivial, ?_⟩
  simpa [Node.key] using congrArg (fun l => l.map Prod.snd) hkeys

theorem type_eq (h : Placement s sim sim' input a gpu best placed) (i : Nat) :
    (sim'.vGPUList[i]?).map (·.TYPE) = (sim.vGPUList[i]?).map (·.TYPE) := by
  have hview := congrArg (Option.map fun g : Nat × DeviceType × List Node => g.2.1) (h.view_eq i)
  simp only [SimState.view, Option.map_map, Function.comp_def] at hview
  rw [hview]
  split
  case isTrue heq => simp [heq, h.gpu_eq]
  case isFalse => simp [Option.map_map, Function.comp_def]

theorem length_eq (h : Placement s sim sim' input a gpu best placed) :
    sim'.vGPUList.length = sim.vGPUList.length := by
  have hmap : sim'.vGPUList.map (·.TYPE) = sim.vGPUList.map (·.TYPE) := by
    apply List.ext_getElem?
    intro i
    rw [List.getElem?_map, List.getElem?_map, h.type_eq]
  simpa using congrArg List.length hmap

/-- The nodes after a placement: the gpu-let, and the rest of a GPU that was
split at the other address. -/
theorem node? (h : Placement s sim sim' input a gpu best placed) (hshape : AllGPUs ShapedGPU sim)
    (b : Addr) : sim'.node? b = if b = a then some placed
      else if s.splits best input = true ∧ b = a.other then
        some (restNode best input.resourcePntg)
      else sim.node? b := by
  obtain ⟨i, j⟩ := a
  obtain ⟨i', j'⟩ := b
  have hlt := (List.getElem?_eq_some_iff.mp h.best_eq).1
  rw [SimState.node?_view, h.view_eq]
  by_cases hi : i' = i
  · subst hi
    rw [if_pos rfl]
    cases hsplits : s.splits best input with
    | false =>
        simp [List.getElem?_set, hlt, SimState.node?, h.gpu_eq, Addr.other, eq_comm (a := j)]
    | true =>
        obtain ⟨hlist, rfl, -⟩ := h.single hshape hsplits
        rcases j' with _ | _ | j'
        · simp [hlist]
        · simp [hlist, Addr.other]
        · simp [hlist, Addr.other, SimState.node?, h.gpu_eq]
  · rw [if_neg hi, ← SimState.node?_view (a := ⟨i', j'⟩), if_neg (by simp [hi]),
      if_neg (by simp [hi, Addr.other])]

theorem other_none (h : Placement s sim sim' input a gpu best placed)
    (hshape : AllGPUs ShapedGPU sim) (hsplits : s.splits best input = true) :
    sim.node? a.other = none ∧ a.other ≠ a := by
  obtain ⟨hlist, hnode, -⟩ := h.single hshape hsplits
  obtain ⟨i, j⟩ := a
  obtain rfl : j = 0 := hnode
  exact ⟨by simp [SimState.node?, Addr.other, h.gpu_eq, hlist], by simp [Addr.other]⟩

theorem shaped (h : Placement s sim sim' input a gpu best placed) (hshape : AllGPUs ShapedGPU sim)
    (hpos : 0 < input.resourcePntg) : AllGPUs ShapedGPU sim' := by
  intro i g' hg'
  have hview := h.view_eq i
  rw [SimState.view, hg', Option.map_some] at hview
  split at hview
  case isFalse =>
    obtain ⟨g, hg, heq⟩ := Option.map_eq_some_iff.mp hview.symm
    simp only [Prod.mk.injEq] at heq
    obtain ⟨h1, h2, h3, h4⟩ := hshape i g hg
    exact ⟨heq.1 ▸ h1, heq.2.2 ▸ h2, heq.2.2 ▸ h3, heq.2.2 ▸ h4⟩
  case isTrue heq =>
    subst heq
    obtain ⟨h1, h2, h3, h4⟩ := hshape _ gpu h.gpu_eq
    simp only [Option.some.injEq, Prod.mk.injEq] at hview
    obtain ⟨hid, -, hnodes⟩ := hview
    have hbest := h2 best (List.mem_of_getElem? h.best_eq)
    have hplaced := h.id_eq.trans hbest
    have hbusy : (placed.vTaskList.map (·.id)).Nodup := by
      obtain ⟨t, ht⟩ := h.busy
      simp [ht]
    cases hsplits : s.splits best input with
    | true =>
        obtain ⟨hlist, hnode, hdedup⟩ := h.single hshape hsplits
        have hkey := h.key_eq
        rw [hsplits, hlist, hnode] at hnodes
        rw [if_pos hsplits, hdedup] at hkey
        have hnodes : g'.vNodeList = [placed, restNode best input.resourcePntg] := hnodes
        simp only [splits, Bool.and_eq_true, decide_eq_true_eq] at hsplits
        have hrest : (restNode best input.resourcePntg).key =
            (100 - input.resourcePntg, if input.resourcePntg = 50 then 1 else 0) := rfl
        refine ⟨hid.trans h1, ?_, ?_, ?_⟩
        · simp [hnodes, hplaced, hbest, restNode, makeEmptyNode]
        · rw [hnodes, List.map_cons, List.map_singleton, hkey, hrest]
          exact .parts hpos hsplits.1.2
        · simp [hnodes, hbusy, restNode, makeEmptyNode]
    | false =>
        rw [hsplits, if_neg Bool.false_ne_true, List.append_nil] at hnodes
        have hkey : placed.key = best.key := by
          rw [h.key_eq, hsplits, if_neg Bool.false_ne_true]
          rfl
        refine ⟨hid.trans h1, fun n hn => ?_, ?_, fun n hn => ?_⟩
        · rw [hnodes] at hn
          rcases List.mem_or_eq_of_mem_set hn with hn | rfl
          · exact h2 n hn
          · exact hplaced
        · rw [hnodes, map_key_set h.best_eq hkey]
          exact h3
        · rw [hnodes] at hn
          rcases List.mem_or_eq_of_mem_set hn with hn | rfl
          · exact h4 n hn
          · exact hbusy

end Placement

/-! ## Vacancies after a placement -/

/-- The check lets a node pass that is whole or whose neighbour is not
disturbed. -/
theorem undisturbed_iff {type : DeviceType} (h : AllGPUs ShapedGPU sim) (hn : sim.node? a = some node) :
    s.checkForInterference type node sim ≠ .ok true ↔ node.resourcePntg = 100 ∨
      ∀ m, sim.node? a.other = some m → s.neighbourDisturbed type m m.vTaskList ≠ .ok true := by
  rw [checkForInterference_eq h hn]
  by_cases hwhole : node.resourcePntg = 100
  · simp [hwhole]
  · cases hm : sim.node? a.other <;> simp [hwhole]

namespace Placement

variable {b : Addr} {type : DeviceType}

theorem empty_of_vacancy {x : Int} (h : Placement s sim sim' input a gpu best placed)
    (hvac : s.vacancy sim type a = some x) : best.vTaskList = [] := by
  obtain ⟨-, node, -, hnode, -, hempty, -⟩ := vacancy_iff.mp hvac
  obtain rfl := Option.some.inj (h.best_at.symm.trans hnode)
  exact hempty

theorem vacancy_taken (h : Placement s sim sim' input a gpu best placed)
    (hshape : AllGPUs ShapedGPU sim) : s.vacancy sim' type a = none := by
  rw [Option.eq_none_iff_forall_ne_some]
  intro x hx
  obtain ⟨gpu', node, -, hnode, -, hempty, -⟩ := vacancy_iff.mp hx
  rw [h.node? hshape, if_pos rfl] at hnode
  obtain rfl := Option.some.inj hnode
  obtain ⟨t, ht⟩ := h.busy
  rw [ht] at hempty
  cases hempty

theorem gpu_after (h : Placement s sim sim' input a gpu best placed) :
    ∃ g', sim'.vGPUList[a.gpu]? = some g' ∧ g'.TYPE = gpu.TYPE := by
  have htype := h.type_eq a.gpu
  rw [h.gpu_eq, Option.map_some] at htype
  exact Option.map_eq_some_iff.mp htype

/-- The rest of a GPU that was split is vacant. -/
theorem vacancy_rest (h : Placement s sim sim' input a gpu best placed)
    (hshape : AllGPUs ShapedGPU sim) (hshape' : AllGPUs ShapedGPU sim')
    (hcalm : s.neighbourDisturbed gpu.TYPE placed placed.vTaskList ≠ .ok true)
    (hsplits : s.splits best input = true) :
    s.vacancy sim' gpu.TYPE a.other = some (100 - input.resourcePntg) := by
  obtain ⟨-, hne⟩ := h.other_none hshape hsplits
  obtain ⟨-, hzero, -⟩ := h.single hshape hsplits
  have hback : a.other.other = a := by
    obtain ⟨i, j⟩ := a
    obtain rfl : j = 0 := hzero
    rfl
  have hrest : sim'.node? a.other = some (restNode best input.resourcePntg) := by
    rw [h.node? hshape, if_neg hne, if_pos ⟨hsplits, rfl⟩]
  obtain ⟨g', hg', htype⟩ := h.gpu_after
  refine vacancy_iff.mpr ⟨g', _, hg', hrest, htype, rfl, ?_, rfl⟩
  rw [undisturbed_iff hshape' hrest, hback, h.node? hshape, if_pos rfl]
  refine Or.inr fun m hm => ?_
  obtain rfl := Option.some.inj hm
  exact hcalm

/-- All other vacancies stay as they are. -/
theorem vacancy_keep (h : Placement s sim sim' input a gpu best placed)
    (hshape : AllGPUs ShapedGPU sim) (hshape' : AllGPUs ShapedGPU sim')
    (hempty : best.vTaskList = [])
    (hcalm : s.neighbourDisturbed gpu.TYPE placed placed.vTaskList ≠ .ok true) (hb : b ≠ a)
    (hb' : s.splits best input = true → b ≠ a.other) :
    s.vacancy sim' type b = s.vacancy sim type b := by
  have hnode : sim'.node? b = sim.node? b := by
    rw [h.node? hshape, if_neg hb, if_neg fun hc => hb' hc.1 hc.2]
  have hcheck : ∀ {n g}, sim.node? b = some n → sim.vGPUList[b.gpu]? = some g →
      (s.checkForInterference g.TYPE n sim' ≠ .ok true ↔
        s.checkForInterference g.TYPE n sim ≠ .ok true) := by
    intro n g hn hg
    rw [undisturbed_iff hshape' (hnode.trans hn), undisturbed_iff hshape hn]
    refine or_congr Iff.rfl ?_
    by_cases hother : b.other = a
    · obtain rfl : g = gpu := by
        have hgpu := h.gpu_eq
        rw [← hother] at hgpu
        exact Option.some.inj (hg.symm.trans hgpu)
      rw [hother, h.node? hshape, if_pos rfl, h.best_at]
      simp only [Option.some.injEq, forall_eq', hempty, neighbourDisturbed]
      exact ⟨fun _ => by simp, fun _ => hcalm⟩
    · have hrest : ¬ (s.splits best input = true ∧ b.other = a.other) := by
        rintro ⟨hsplits, heq⟩
        obtain ⟨-, hzero, -⟩ := h.single hshape hsplits
        obtain ⟨i, j⟩ := a
        obtain ⟨i', j'⟩ := b
        obtain rfl : j = 0 := hzero
        simp only [Addr.other, Addr.mk.injEq] at heq
        exact hb (by simp only [Addr.mk.injEq]; omega)
      rw [h.node? hshape, if_neg hother, if_neg hrest]
  refine Option.ext fun x => ?_
  rw [vacancy_iff, vacancy_iff]
  constructor
  · rintro ⟨g', n, hg', hn, rfl, hnil, hdist, rfl⟩
    have htype := h.type_eq b.gpu
    rw [hg', Option.map_some] at htype
    obtain ⟨g, hg, heq⟩ := Option.map_eq_some_iff.mp htype.symm
    rw [hnode] at hn
    rw [← heq] at hdist ⊢
    exact ⟨g, n, hg, hn, rfl, hnil, (hcheck hn hg).mp hdist, rfl⟩
  · rintro ⟨g, n, hg, hn, rfl, hnil, hdist, rfl⟩
    have htype := h.type_eq b.gpu
    rw [hg, Option.map_some] at htype
    obtain ⟨g', hg', heq⟩ := Option.map_eq_some_iff.mp htype
    exact ⟨g', n, hg', hnode.trans hn, heq, hnil, (hcheck hn hg).mpr hdist, rfl⟩

end Placement

end Scheduler

end Glet
