import Glet.Reach

/-!
# What an action does to the nodes

Most actions rewrite one node (`Action.writes`); a split adds an empty node,
`unify` drops empty ones, new devices come with empty nodes, and the rest
leave every node as it is. Three rules follow, which carry the invariants
of the later modules:

- `Every.apply`: a property of nodes that empty nodes have is kept by an
  action if its rewriting keeps it;
- `total_apply`: a sum over nodes to which empty nodes contribute nothing
  changes by what the rewriting of one node changes.

`AllGPUs.apply` is the rule for properties of a GPU as a whole, of which
`Homed` is the one that the other modules need: every node knows the GPU it
is on.
-/

namespace Glet

open Recorder

/-! ## Rewritten nodes -/

/-- The node an action rewrites, and how. -/
def Action.writes (repart : Bool) (c : Core) : Action → Option (Addr × (Node → Node))
  | forget a => some (a, fun n =>
      { n with vTaskList := n.vTaskList.eraseP fun t => t.id == c.task.id })
  | occupy a occupancy => some (a, fun n => { n with occupancy })
  | fit a org _ => some (a, fun n => copyToNode org n repart)
  | prime a duty occupancy => some (a, fun n => { n with dutyCycle := some duty, occupancy })
  | place a _ t duty occupancy => some (a, fun n =>
      { n with vTaskList := n.vTaskList ++ [t], dutyCycle := some duty, occupancy })
  | revert a | wipe a _ => some (a, fun n =>
      { n with vTaskList := [], dutyCycle := some 0, occupancy := 0 })
  | adjust a n' => some (a, fun _ => n')
  | merged a t duty occupancy _ => some (a, fun n =>
      { n with vTaskList := n.vTaskList ++ [t], dutyCycle := some duty, occupancy })
  | share a t duty occupancy _ => some (a, fun n =>
      { n with
        vTaskList := n.vTaskList.map (retime duty) ++ [t]
        dutyCycle := some (duty : ℚ), occupancy })
  | _ => none

variable {s : Scheduler} {repart : Bool} {c : Core} {act : Action} {a b : Addr} {f : Node → Node}
  {n : Node}

/-- The decision after a rewriting; `wipe` also sets the memory in use. -/
theorem Action.apply_writes (h : act.writes repart c = some (a, f)) :
    (act.apply repart c).sim = (c.write a f).sim ∨
      ∃ used, act = .wipe a used ∧ (act.apply repart c).sim =
        (c.write a f).sim.modifyGPU a.gpu fun g => { g with usedMemory := used } := by
  cases act <;> simp only [writes, Option.some.injEq, Prod.mk.injEq, reduceCtorEq] at h
  case wipe b used =>
      obtain ⟨rfl, rfl⟩ := h
      exact Or.inr ⟨used, rfl, rfl⟩
  all_goals
    obtain ⟨rfl, rfl⟩ := h
    exact Or.inl rfl

theorem Action.node?_writes (h : act.writes repart c = some (a, f)) (b : Addr) :
    (act.apply repart c).sim.node? b =
      if b = a then (c.sim.node? a).map f else c.sim.node? b := by
  rw [← Core.write_node?]
  rcases apply_writes h with hsim | ⟨used, -, hsim⟩
  · rw [hsim]
  · rw [hsim, SimState.node?_modifyGPU]
    exact fun _ => rfl

/-- The rewritten node exists. -/
theorem Detail.written (hd : Detail s c act) (h : act.writes repart c = some (a, f)) :
    ∃ n, c.sim.node? a = some n := by
  cases act <;> simp only [Action.writes, Option.some.injEq, Prod.mk.injEq, reduceCtorEq] at h
  all_goals obtain ⟨rfl, rfl⟩ := h
  case forget => exact hd.imp fun n hn => hn.1
  case occupy => exact hd
  case fit =>
      obtain ⟨m, -, -, -, -, hm, -⟩ := hd.target
      exact ⟨m, hm⟩
  case prime => exact hd.imp fun n hn => hn.1
  case place => exact hd.target.imp fun n hn => hn.choose_spec.choose_spec.1
  case revert => exact hd.2.2.2.imp fun n hn => hn.1
  case adjust => exact hd.2.imp fun n hn => hn.1
  case wipe => exact hd.2.imp fun n hn => hn.1
  case merged => exact hd.target.imp fun n hn => hn.choose_spec.1
  case share => exact hd.target.imp fun n hn => hn.choose_spec.choose_spec.1

/-! ## The other actions -/

/-- Actions that neither rewrite a node nor change the nodes of a GPU. -/
def Action.isQuiet : Action → Bool
  | pass _ | start _ | bandwidthOK _ | accept .. | absorb | rerate _ | addRate _ | gather ..
  | unplaced | charge .. | skipCharge _ | finish | leave | markLoaded => true
  | _ => false

/-- A quiet action leaves the nodes and the type of every GPU as they are. -/
theorem Action.quiet_gpu (repart : Bool) (c : Core) (h : act.isQuiet = true) (i : Nat) :
    ((act.apply repart c).sim.vGPUList[i]?).map (fun g => (g.GPUID, g.TYPE, g.vNodeList)) =
      (c.sim.vGPUList[i]?).map fun g => (g.GPUID, g.TYPE, g.vNodeList) := by
  cases act <;> try cases h
  case charge a g used m =>
      simp only [apply, SimState.getElem?_modifyGPU]
      split
      · cases c.sim.vGPUList[i]? <;> rfl
      · rfl
  case markLoaded =>
      simp only [apply, List.getElem?_map]
      cases c.sim.vGPUList[i]? <;> rfl
  all_goals rfl

theorem Action.quiet_nodes (h : act.isQuiet = true) (i : Nat) :
    ((act.apply repart c).sim.vGPUList[i]?).map (·.vNodeList) =
      (c.sim.vGPUList[i]?).map (·.vNodeList) := by
  have := congrArg (Option.map (fun p : Nat × DeviceType × List Node => p.2.2))
    (quiet_gpu repart c h i)
  simpa only [Option.map_map, Function.comp_def] using this

theorem node?_eq_bind (sim : SimState) (a : Addr) :
    sim.node? a = ((sim.vGPUList[a.gpu]?).map (·.vNodeList)).bind fun l => l[a.node]? := by
  cases h : sim.vGPUList[a.gpu]? <;> simp [SimState.node?, h]

theorem Action.node?_quiet (h : act.isQuiet = true) (b : Addr) :
    (act.apply repart c).sim.node? b = c.sim.node? b := by
  rw [node?_eq_bind, quiet_nodes h, ← node?_eq_bind]

/-- Every action rewrites a node, or is quiet, or is one of three. -/
theorem Action.kinds (repart : Bool) (c : Core) (act : Action) :
    (∃ a f, act.writes repart c = some (a, f)) ∨ act.isQuiet = true ∨
      (∃ gpus, act = .initDevs gpus) ∨ (∃ a part, act = .split a part) ∨ ∃ g, act = .unify g := by
  cases act
  case initDevs gpus => exact Or.inr (Or.inr (Or.inl ⟨gpus, rfl⟩))
  case split a part => exact Or.inr (Or.inr (Or.inr (Or.inl ⟨a, part, rfl⟩)))
  case unify g => exact Or.inr (Or.inr (Or.inr (Or.inr ⟨g, rfl⟩)))
  all_goals first
    | exact Or.inl ⟨_, _, rfl⟩
    | exact Or.inr (Or.inl rfl)

/-! ## Properties of all nodes -/

/-- Every node of a decision has a property. -/
def Every (P : Node → Prop) (sim : SimState) : Prop := ∀ a n, sim.node? a = some n → P n

/-- A property that empty nodes have and that a rewriting keeps. -/
theorem Every.apply {P : Node → Prop} (hempty : ∀ n, n.vTaskList = [] → P n)
    (hd : Detail s c act) (h : Every P c.sim)
    (hwrite : ∀ a f n, act.writes s.useRepartition c = some (a, f) → c.sim.node? a = some n →
      P n → P (f n)) : Every P (act.apply s.useRepartition c).sim := by
  intro b n' hn'
  rcases Action.kinds s.useRepartition c act with ⟨a, f, hw⟩ | hq | ⟨gpus, rfl⟩ | ⟨a, part, rfl⟩ |
    ⟨g, rfl⟩
  · rw [Action.node?_writes hw] at hn'
    split at hn'
    · obtain ⟨n, hn, rfl⟩ := Option.map_eq_some_iff.mp hn'
      exact hwrite a f n hw hn (h a n hn)
    · exact h b n' hn'
  · rw [Action.node?_quiet hq] at hn'
    exact h b n' hn'
  · obtain ⟨-, rfl⟩ := hd
    obtain ⟨g, -, rfl⟩ := NewGPU.node? (fun _ _ => Scheduler.initiateDevs_new) hn'
    exact hempty _ rfl
  · obtain ⟨n, gpu, hn, hnil, -, -, -, hgpu⟩ := hd
    rw [split_node? hn hgpu] at hn'
    split at hn'
    · obtain rfl := Option.some.inj hn'
      exact hempty _ rfl
    · split at hn'
      · obtain rfl := Option.some.inj hn'
        exact hempty _ hnil
      · exact h b n' hn'
  · obtain ⟨gpu, hgpu, -, hnil⟩ := hd
    obtain ⟨g', hg', hmem⟩ := SimState.gpu_of_node? hn'
    simp only [Action.apply, SimState.getElem?_modifyGPU] at hg'
    split at hg'
    case isTrue heq =>
      rw [← heq, hgpu] at hg'
      obtain rfl := Option.some.inj hg'
      have hmem' := List.mem_of_getElem? hmem
      simp only [unifyGPU, List.mem_map] at hmem'
      obtain ⟨m, hm, rfl⟩ := hmem'
      exact hempty _ (hnil m (List.mem_of_mem_take hm))
    case isFalse => exact h b n' (SimState.node?_of_gpu hg' hmem)

theorem Fresh.every {P : Node → Prop} {sim : SimState} (hempty : ∀ n, n.vTaskList = [] → P n)
    (h : Fresh s sim) : Every P sim := by
  intro a n hn
  obtain ⟨g, -, rfl⟩ := h.node? hn
  exact hempty _ rfl

/-! ## Sums over nodes -/

section Sums

variable {M : Type} [AddCommGroup M] {F : Node → M}

theorem SimState.total_writes (repart : Bool) (act : Action)
    (h : act.writes repart c = some (a, f))
    (hn : c.sim.node? a = some n) :
    (act.apply repart c).sim.total F = c.sim.total F + (F (f n) - F n) := by
  have hwrite : (c.write a f).sim.total F = c.sim.total F + (F (f n) - F n) := by
    rw [Core.write_of_node hn]
    exact total_setNode F hn
  rcases Action.apply_writes h with hsim | ⟨used, -, hsim⟩
  · rw [hsim, hwrite]
  · rw [hsim, total_modifyGPU_same, hwrite]
    exact fun _ => rfl

theorem GPU.total_empty {g : GPU} (hempty : ∀ n, n.vTaskList = [] → F n = 0)
    (hg : ∀ n ∈ g.vNodeList, n.vTaskList = []) : g.total F = 0 := by
  refine List.sum_eq_zero fun x hx => ?_
  obtain ⟨n, hn, rfl⟩ := List.mem_map.mp hx
  exact hempty n (hg n hn)

theorem GPU.total_unify {g : GPU} (hempty : ∀ n, n.vTaskList = [] → F n = 0)
    (hg : ∀ n ∈ g.vNodeList, n.vTaskList = []) : (unifyGPU g).total F = 0 := by
  refine total_empty hempty fun n hn => ?_
  simp only [unifyGPU, List.mem_map] at hn
  obtain ⟨m, hm, rfl⟩ := hn
  exact hg m (List.mem_of_mem_take hm)

theorem SimState.total_quiet (h : act.isQuiet = true) :
    (act.apply repart c).sim.total F = c.sim.total F := by
  have hlist : (act.apply repart c).sim.vGPUList.map (·.vNodeList) =
      c.sim.vGPUList.map (·.vNodeList) := by
    apply List.ext_getElem?
    intro i
    rw [List.getElem?_map, List.getElem?_map, Action.quiet_nodes h]
  have hsum : ∀ sim : SimState, sim.total F =
      ((sim.vGPUList.map (·.vNodeList)).map fun l => (l.map F).sum).sum := by
    intro sim
    rw [List.map_map]
    rfl
  rw [hsum, hlist, ← hsum]

/-- A sum over all nodes changes by the rewriting of one node, or not at all. -/
theorem total_apply (hempty : ∀ n, n.vTaskList = [] → F n = 0) (hd : Detail s c act) :
    (∃ a f n, act.writes s.useRepartition c = some (a, f) ∧ c.sim.node? a = some n ∧
        (act.apply s.useRepartition c).sim.total F = c.sim.total F + (F (f n) - F n)) ∨
      (act.writes s.useRepartition c = none ∧
        (act.apply s.useRepartition c).sim.total F = c.sim.total F) := by
  rcases Action.kinds s.useRepartition c act with ⟨a, f, hw⟩ | hq | ⟨gpus, rfl⟩ | ⟨a, part, rfl⟩ |
    ⟨g, rfl⟩
  · obtain ⟨n, hn⟩ := hd.written hw
    exact Or.inl ⟨a, f, n, hw, hn, SimState.total_writes _ _ hw hn⟩
  · refine Or.inr ⟨?_, SimState.total_quiet hq⟩
    cases act <;> first | rfl | cases hq
  · obtain ⟨hnil, rfl⟩ := hd
    refine Or.inr ⟨rfl, ?_⟩
    have hold : c.sim.total F = 0 := by simp [SimState.total, hnil]
    rw [hold]
    exact SimState.total_new hempty fun _ _ => Scheduler.initiateDevs_new
  · obtain ⟨n, gpu, hn, hnil, -, -, -, hgpu⟩ := hd
    refine Or.inr ⟨rfl, ?_⟩
    obtain ⟨g', hg'⟩ : ∃ g', (c.sim.setNode a { n with resourcePntg := part }).vGPUList[n.id]? =
        some g' := by
      simp only [SimState.setNode, SimState.getElem?_modifyGPU, hgpu]
      split <;> simp
    simp only [Action.apply, hn]
    rw [SimState.total_pushNode F hg', SimState.total_setNode F hn,
      hempty (restNode n part) rfl, hempty { n with resourcePntg := part } hnil, hempty n hnil]
    simp
  · obtain ⟨gpu, hgpu, -, hnil⟩ := hd
    refine Or.inr ⟨rfl, ?_⟩
    change (c.sim.modifyGPU g unifyGPU).total F = _
    rw [SimState.total_modifyGPU F _ hgpu, GPU.total_unify hempty hnil,
      GPU.total_empty hempty hnil]
    simp

/-- What the node at an address contributes to a sum; nothing if there is
none. -/
def SimState.valueAt (F : Node → M) (b : Addr) (sim : SimState) : M :=
  ((sim.node? b).map F).getD 0

theorem SimState.valueAt_node {sim : SimState} (h : sim.node? b = some n) :
    sim.valueAt F b = F n := by
  rw [valueAt, h]
  rfl

theorem SimState.valueAt_empty {sim : SimState} (hempty : ∀ n, n.vTaskList = [] → F n = 0)
    (h : ∀ n, sim.node? b = some n → n.vTaskList = []) : sim.valueAt F b = 0 := by
  cases hn : sim.node? b with
  | none => rw [valueAt, hn]; rfl
  | some n => rw [valueAt_node hn, hempty n (h n hn)]

theorem valueAt_writes (repart : Bool) (act : Action) (h : act.writes repart c = some (a, f))
    (hn : c.sim.node? a = some n) :
    (act.apply repart c).sim.valueAt F b = if b = a then F (f n) else c.sim.valueAt F b := by
  rw [SimState.valueAt, Action.node?_writes h, hn]
  split <;> rfl

/-- Without a rewriting no address changes its contribution. -/
theorem valueAt_apply (hempty : ∀ n, n.vTaskList = [] → F n = 0) (hd : Detail s c act)
    (hw : act.writes s.useRepartition c = none) (b : Addr) :
    (act.apply s.useRepartition c).sim.valueAt F b = c.sim.valueAt F b := by
  rcases Action.kinds s.useRepartition c act with ⟨a, f, hw'⟩ | hq | ⟨gpus, rfl⟩ | ⟨a, part, rfl⟩ |
    ⟨g, rfl⟩
  · rw [hw] at hw'
    cases hw'
  · rw [SimState.valueAt, Action.node?_quiet hq]
    rfl
  · obtain ⟨hnil, rfl⟩ := hd
    rw [SimState.valueAt_empty hempty, SimState.valueAt_empty hempty]
    · intro n hn
      simp [SimState.node?, hnil] at hn
    · intro n hn
      obtain ⟨g, -, rfl⟩ := NewGPU.node? (fun _ _ => Scheduler.initiateDevs_new) hn
      rfl
  · obtain ⟨n, gpu, hn, hnil, -, -, -, hgpu⟩ := hd
    rw [SimState.valueAt, split_node? hn hgpu]
    split
    case isTrue heq =>
      rw [heq, SimState.valueAt, SimState.node?_length hgpu]
      exact hempty _ rfl
    case isFalse =>
      split
      case isTrue heq =>
        rw [heq, SimState.valueAt_node hn, hempty n hnil]
        exact hempty _ hnil
      case isFalse => rfl
  · obtain ⟨gpu, hgpu, -, hnil⟩ := hd
    by_cases hb : g = b.gpu
    · subst hb
      rw [SimState.valueAt_empty hempty, SimState.valueAt_empty hempty]
      · intro n hn
        obtain ⟨gpu', hgpu', hn⟩ := SimState.gpu_of_node? hn
        obtain rfl : gpu = gpu' := Option.some.inj (hgpu.symm.trans hgpu')
        exact hnil n (List.mem_of_getElem? hn)
      · intro n hn
        obtain ⟨gpu', hgpu', hn⟩ := SimState.gpu_of_node? hn
        simp only [Action.apply, SimState.getElem?_modifyGPU, if_true, hgpu, Option.map_some,
          Option.some.injEq] at hgpu'
        subst hgpu'
        have hmem := List.mem_of_getElem? hn
        simp only [unifyGPU, List.mem_map] at hmem
        obtain ⟨m, hm, rfl⟩ := hmem
        exact hnil m (List.mem_of_mem_take hm)
    · rw [SimState.valueAt]
      simp only [Action.apply]
      rw [SimState.node?_modifyGPU_ne _ hb]
      rfl

/-- A sum over all nodes, less what the node at an address contributes. -/
def SimState.totalBut (F : Node → M) (o : Option Addr) (sim : SimState) : M :=
  sim.total F - o.elim 0 fun b => sim.valueAt F b

@[simp]
theorem SimState.totalBut_none {sim : SimState} : sim.totalBut F none = sim.total F :=
  sub_zero _

theorem SimState.totalBut_some {sim : SimState} (h : sim.node? b = some n) :
    sim.totalBut F (some b) = sim.total F - F n := by
  rw [totalBut, Option.elim_some, valueAt_node h]

/-- Rewriting the node that does not count changes nothing. -/
theorem totalBut_writes (repart : Bool) (act : Action) (h : act.writes repart c = some (a, f))
    (hn : c.sim.node? a = some n) (o : Option Addr) :
    (act.apply repart c).sim.totalBut F o =
      if o = some a then c.sim.totalBut F o else c.sim.totalBut F o + (F (f n) - F n) := by
  have htotal := SimState.total_writes (F := F) repart act h hn
  cases o with
  | none => simp [htotal]
  | some b =>
      simp only [SimState.totalBut, Option.elim_some, htotal, valueAt_writes repart act h hn,
        Option.some.injEq]
      split
      case isTrue heq =>
        rw [heq, SimState.valueAt_node hn]
        abel
      case isFalse => abel

theorem totalBut_apply (hempty : ∀ n, n.vTaskList = [] → F n = 0) (hd : Detail s c act)
    (hw : act.writes s.useRepartition c = none) (o : Option Addr) :
    (act.apply s.useRepartition c).sim.totalBut F o = c.sim.totalBut F o := by
  have htotal : (act.apply s.useRepartition c).sim.total F = c.sim.total F := by
    rcases total_apply hempty hd with ⟨a, f, n, hw', -⟩ | ⟨-, hsame⟩
    · rw [hw] at hw'
      cases hw'
    · exact hsame
  cases o with
  | none => simpa using htotal
  | some b =>
      simp only [SimState.totalBut, Option.elim_some, htotal, valueAt_apply hempty hd hw]

end Sums

/-! ## Properties of all GPUs -/

/-- Every GPU of a decision has a property, which may mention its index. -/
def AllGPUs (Q : Nat → GPU → Prop) (sim : SimState) : Prop :=
  ∀ i g, sim.vGPUList[i]? = some g → Q i g

theorem Action.gpu_writes (h : act.writes repart c = some (a, f)) (hn : c.sim.node? a = some n)
    {i : Nat} {g' : GPU} (hg' : (act.apply repart c).sim.vGPUList[i]? = some g') :
    ∃ g, c.sim.vGPUList[i]? = some g ∧ g'.GPUID = g.GPUID ∧ g'.TYPE = g.TYPE ∧
      g'.vNodeList = if a.gpu = i then g.vNodeList.set a.node (f n) else g.vNodeList := by
  have hset : ∀ {g1}, (c.write a f).sim.vGPUList[i]? = some g1 →
      ∃ g, c.sim.vGPUList[i]? = some g ∧ g1.GPUID = g.GPUID ∧ g1.TYPE = g.TYPE ∧
        g1.vNodeList = if a.gpu = i then g.vNodeList.set a.node (f n) else g.vNodeList := by
    intro g1 hg1
    rw [Core.write_of_node hn] at hg1
    simp only [SimState.setNode, SimState.getElem?_modifyGPU] at hg1
    split at hg1
    case isTrue heq =>
      obtain ⟨g, hg, rfl⟩ := Option.map_eq_some_iff.mp hg1
      exact ⟨g, hg, rfl, rfl, by rw [if_pos heq]⟩
    case isFalse hne => exact ⟨g1, hg1, rfl, rfl, by rw [if_neg hne]⟩
  rcases apply_writes h with hsim | ⟨used, -, hsim⟩
  · rw [hsim] at hg'
    exact hset hg'
  · rw [hsim, SimState.getElem?_modifyGPU] at hg'
    split at hg'
    · obtain ⟨g1, hg1, rfl⟩ := Option.map_eq_some_iff.mp hg'
      obtain ⟨g, hg, hkeep⟩ := hset hg1
      exact ⟨g, hg, hkeep⟩
    · exact hset hg'

/-- A property of the nodes of a GPU: it holds of new devices, and rewriting a
node, splitting a whole node and merging empty nodes keep it. -/
theorem AllGPUs.apply {Q : Nat → GPU → Prop}
    (hsame : ∀ {i g g'}, g'.GPUID = g.GPUID → g'.TYPE = g.TYPE → g'.vNodeList = g.vNodeList →
      Q i g → Q i g')
    (hnew : ∀ {i g}, NewGPU i g → g.TYPE ∈ s.deviceTypes → Q i g) (hhome : ∀ {i g}, Q i g → ∀ n ∈ g.vNodeList, n.id = i)
    (hd : Detail s c act) (h : AllGPUs Q c.sim)
    (hwrite : ∀ a f n g, act.writes s.useRepartition c = some (a, f) → c.sim.node? a = some n →
      g.vNodeList[a.node]? = some n → Q a.gpu g →
      Q a.gpu { g with vNodeList := g.vNodeList.set a.node (f n) })
    (hsplit : ∀ i j n part g, g.vNodeList[j]? = some n → n.vTaskList = [] →
      n.resourcePntg = 100 → part < 100 → Offered s part → Q i g →
      Q i { g with
        vNodeList := g.vNodeList.set j { n with resourcePntg := part } ++ [restNode n part] })
    (hunify : ∀ i g, (∀ n ∈ g.vNodeList, n.vTaskList = []) → 1 < g.vNodeList.length → Q i g →
      Q i (unifyGPU g)) : AllGPUs Q (act.apply s.useRepartition c).sim := by
  intro i g' hg'
  rcases Action.kinds s.useRepartition c act with ⟨a, f, hw⟩ | hq | ⟨gpus, rfl⟩ | ⟨a, part, rfl⟩ |
    ⟨k, rfl⟩
  · obtain ⟨n, hn⟩ := hd.written hw
    obtain ⟨g, hg, hid, htype, hnodes⟩ := Action.gpu_writes hw hn hg'
    split at hnodes
    case isTrue heq =>
      subst heq
      obtain ⟨g0, hg0, hn0⟩ := SimState.gpu_of_node? hn
      obtain rfl : g = g0 := Option.some.inj (hg.symm.trans hg0)
      have hQ := hwrite a f n g hw hn hn0 (h _ g hg)
      exact hsame (g := { g with vNodeList := g.vNodeList.set a.node (f n) }) hid htype hnodes hQ
    case isFalse => exact hsame hid htype hnodes (h i g hg)
  · have hkeep := Action.quiet_gpu s.useRepartition c hq i
    rw [hg'] at hkeep
    obtain ⟨g, hg, heq⟩ := Option.map_eq_some_iff.mp hkeep.symm
    simp only [Prod.mk.injEq] at heq
    exact hsame heq.1.symm heq.2.1.symm heq.2.2.symm (h i g hg)
  · obtain ⟨-, rfl⟩ := hd
    exact hnew (Scheduler.initiateDevs_new hg') (Scheduler.initiateDevs_type hg')
  · obtain ⟨n, gpu, hn, hnil, hwhole, hpart, hprof, hgpu⟩ := hd
    obtain ⟨g, hg, hj⟩ := SimState.gpu_of_node? hn
    have hid : n.id = a.gpu := hhome (h _ g hg) n (List.mem_of_getElem? hj)
    simp only [Action.apply, hn, SimState.pushNode, SimState.setNode,
      SimState.getElem?_modifyGPU] at hg'
    rw [hid] at hg'
    split at hg'
    case isTrue heq =>
      subst heq
      rw [hg] at hg'
      obtain rfl := Option.some.inj hg'
      have hQ := hsplit _ a.node n part g hj hnil hwhole hpart hprof (h _ g hg)
      rw [hid] at hQ
      exact hQ
    case isFalse => exact h i g' hg'
  · obtain ⟨gpu, hgpu, hlen, hnil⟩ := hd
    simp only [Action.apply, SimState.getElem?_modifyGPU] at hg'
    split at hg'
    case isTrue heq =>
      subst heq
      rw [hgpu] at hg'
      obtain rfl := Option.some.inj hg'
      exact hunify _ gpu hnil hlen (h _ gpu hgpu)
    case isFalse => exact h i g' hg'

/-! ## Nodes know their GPU -/

/-- The ids and types of a GPU and of its nodes agree with its index. -/
structure HomedGPU (i : Nat) (g : GPU) : Prop where
  GPUID_eq : g.GPUID = i
  id_eq : ∀ n ∈ g.vNodeList, n.id = i
  type_eq : ∀ n ∈ g.vNodeList, n.type = g.TYPE

abbrev Homed (sim : SimState) : Prop := AllGPUs HomedGPU sim

theorem NewGPU.homed {i : Nat} {g : GPU} (h : NewGPU i g) : HomedGPU i g := by
  refine ⟨h.GPUID_eq, ?_, ?_⟩ <;>
  · intro n hn
    rw [h.nodes_eq] at hn
    rw [List.mem_singleton.mp hn]
    rfl

/-- Rewriting a node keeps its id and type. -/
theorem Detail.writes_id (hd : Detail s c act) (h : act.writes repart c = some (a, f))
    (hn : c.sim.node? a = some n) : (f n).id = n.id ∧ (f n).type = n.type := by
  cases act <;> simp only [Action.writes, Option.some.injEq, Prod.mk.injEq, reduceCtorEq] at h
  case adjust b n' =>
      obtain ⟨rfl, rfl⟩ := h
      obtain ⟨-, m, hm, hadj⟩ := hd
      obtain rfl : n = m := Option.some.inj (hn.symm.trans hm)
      exact ⟨hadj.id_eq, hadj.type_eq⟩
  all_goals
    obtain ⟨rfl, rfl⟩ := h
    exact ⟨rfl, rfl⟩

/-- A node of a GPU one of whose nodes was split. -/
theorem mem_split {m : Node} {ns : List Node} {j : Nat} {part : Int}
    (h : m ∈ ns.set j { n with resourcePntg := part } ++ [restNode n part]) :
    m ∈ ns ∨ m = { n with resourcePntg := part } ∨ m = restNode n part := by
  rcases List.mem_append.mp h with h | h
  · exact (List.mem_or_eq_of_mem_set h).imp_right Or.inl
  · exact Or.inr (Or.inr (List.mem_singleton.mp h))

theorem Homed.apply (hd : Detail s c act) (h : Homed c.sim) :
    Homed (act.apply s.useRepartition c).sim := by
  refine AllGPUs.apply ?_ (fun hg _ => hg.homed) (fun hg => hg.id_eq) hd h ?_ ?_ ?_
  · rintro i g g' hid htype hnodes ⟨h1, h2, h3⟩
    exact ⟨hid.trans h1, by rw [hnodes]; exact h2, by rw [hnodes, htype]; exact h3⟩
  · rintro a f n g hw hn hj ⟨h1, h2, h3⟩
    obtain ⟨hid, htype⟩ := hd.writes_id hw hn
    have hmem := List.mem_of_getElem? hj
    refine ⟨h1, fun m hm => ?_, fun m hm => ?_⟩
    · rcases List.mem_or_eq_of_mem_set hm with hm | rfl
      · exact h2 m hm
      · exact hid.trans (h2 n hmem)
    · rcases List.mem_or_eq_of_mem_set hm with hm | rfl
      · exact h3 m hm
      · exact htype.trans (h3 n hmem)
  · rintro i j n part g hj - - - - ⟨h1, h2, h3⟩
    have hmem := List.mem_of_getElem? hj
    refine ⟨h1, fun m hm => ?_, fun m hm => ?_⟩
    · rcases mem_split hm with hm | rfl | rfl
      · exact h2 m hm
      · exact h2 n hmem
      · exact h2 n hmem
    · rcases mem_split hm with hm | rfl | rfl
      · exact h3 m hm
      · exact h3 n hmem
      · exact h3 n hmem
  · rintro i g - - ⟨h1, h2, h3⟩
    refine ⟨h1, fun m hm => ?_, fun m hm => ?_⟩ <;>
    · simp only [unifyGPU, List.mem_map] at hm
      obtain ⟨m0, hm0, rfl⟩ := hm
      have hmem := List.mem_of_mem_take hm0
      first | exact h2 m0 hmem | exact h3 m0 hmem

theorem Homed.node_id {sim : SimState} (h : Homed sim) (hn : sim.node? a = some n) :
    n.id = a.gpu := by
  obtain ⟨g, hg, hmem⟩ := SimState.gpu_of_node? hn
  exact (h _ g hg).id_eq n (List.mem_of_getElem? hmem)

theorem Homed.node_type {sim : SimState} {g : GPU} (h : Homed sim) (hn : sim.node? a = some n)
    (hg : sim.vGPUList[a.gpu]? = some g) : n.type = g.TYPE := by
  obtain ⟨g', hg', hmem⟩ := SimState.gpu_of_node? hn
  obtain rfl : g = g' := Option.some.inj (hg.symm.trans hg')
  exact (h _ g hg).type_eq n (List.mem_of_getElem? hmem)

theorem Fresh.homed {sim : SimState} (h : Fresh s sim) : Homed sim :=
  fun _ _ hg => (h.gpu hg).1.homed

/-- A sum over one GPU, as a sum over the whole decision. -/
theorem Homed.total_gpu {M : Type} [AddCommGroup M] {sim : SimState} (h : Homed sim)
    (F : Node → M) {i : Nat} {g : GPU} (hg : sim.vGPUList[i]? = some g) :
    g.total F = sim.total fun n => if n.id = i then F n else 0 := by
  set G : Node → M := fun n => if n.id = i then F n else 0 with hG
  have hsame : g.total G = g.total F := by
    refine congrArg List.sum (List.map_congr_left fun n hn => ?_)
    simp only [hG, if_pos ((h i g hg).id_eq n hn)]
  have hrest : (sim.modifyGPU i fun g => { g with vNodeList := [] }).total G = 0 := by
    rw [SimState.total_eq_nodes, List.sum_eq_zero]
    intro x hx
    obtain ⟨n, hn, rfl⟩ := List.mem_map.mp hx
    obtain ⟨b, hb⟩ := SimState.mem_nodes.mp hn
    obtain ⟨g', hg', hb⟩ := SimState.gpu_of_node? hb
    rw [SimState.getElem?_modifyGPU] at hg'
    split at hg'
    · obtain ⟨g0, -, rfl⟩ := Option.map_eq_some_iff.mp hg'
      simp at hb
    case isFalse hne =>
      have hid := (h _ g' hg').id_eq n (List.mem_of_getElem? hb)
      simp only [hG]
      rw [if_neg]
      omega
  rw [SimState.total_modifyGPU G _ hg] at hrest
  have hzero : GPU.total G { g with vNodeList := [] } = 0 := rfl
  rw [hzero, hsame, zero_sub, add_neg_eq_zero] at hrest
  exact hrest.symm

end Glet
