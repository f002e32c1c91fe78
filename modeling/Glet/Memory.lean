import Glet.Effects

/-!
# GPU memory

`addGPUMemUsage` charges a GPU for a model after the gpu-let was placed. The
invariant (`Booked`) keeps the memory in use equal to what the nodes of the
GPU hold, less the gpu-let that is not charged yet.

The books go wrong in four places. `isModelLoaded` looks at the node the task
was just put on, so that a loaded part is never charged again: neither a
second model on a node (`allocateTimeShare`) nor a model on a part that was
used before. `mergeResidue` gives back the models it clears, but not the
framework of the node, and does not charge the gpu-let it places; and the
previously scheduled branch erases entries without giving anything back.
`keepsBooks` says that a step is none of these.
-/

namespace Glet

open Recorder

variable {s : Scheduler} {c : Core} {act : Action} {a : Addr} {f : Node → Node} {n : Node}
  {i : Nat}

/-! ## Memory of nodes and GPUs -/

namespace Scheduler

/-- Memory of the models of a node. -/
def modelMem (s : Scheduler) (n : Node) : Int :=
  (n.vTaskList.map fun t => s.mapModelIDtoMemSize t.id).sum

/-- Memory a node needs: its models and, if there is one, the framework. -/
def nodeMem (s : Scheduler) (n : Node) : Int :=
  s.modelMem n + if n.vTaskList.isEmpty then 0 else defaultPytorchMemUsage

/-- The same, for a node of GPU `i`; the other nodes count nothing. -/
def memOn (s : Scheduler) (i : Nat) (n : Node) : Int := if n.id = i then s.nodeMem n else 0

/-- What the nodes of a GPU need: the framework once for every node that hosts
a task, and every entry's model. -/
def requiredMem (s : Scheduler) (g : GPU) : Int :=
  defaultPytorchMemUsage * (g.vNodeList.countP fun n => !n.vTaskList.isEmpty) +
    (g.vNodeList.map s.modelMem).sum

theorem requiredMem_eq (g : GPU) : s.requiredMem g = g.total s.nodeMem := by
  obtain ⟨id, total, used, type, parts, nodes⟩ := g
  simp only [requiredMem, GPU.total]
  induction nodes with
  | nil => simp
  | cons n ns ih =>
      rw [List.map_cons, List.sum_cons, List.map_cons, List.sum_cons, List.countP_cons, ← ih,
        nodeMem]
      cases n.vTaskList.isEmpty
      · simp only [Bool.not_false, if_true, Bool.false_eq_true, if_false, Nat.cast_add,
          Nat.cast_one]
        ring
      · simp only [Bool.not_true, Bool.false_eq_true, if_false, if_true, add_zero]
        ring

theorem memOn_empty {n : Node} (h : n.vTaskList = []) : s.memOn i n = 0 := by
  simp [memOn, nodeMem, modelMem, h]

/-- Memory depends on the models of a node alone. -/
theorem memOn_ids {m : Node} (hid : m.id = n.id)
    (hids : m.vTaskList.map (·.id) = n.vTaskList.map (·.id)) : s.memOn i m = s.memOn i n := by
  have hmodels : s.modelMem m = s.modelMem n := by
    have := congrArg (fun l : List Int => (l.map s.mapModelIDtoMemSize).sum) hids
    simpa only [modelMem, List.map_map, Function.comp_def] using this
  have hlen := congrArg List.length hids
  simp only [List.length_map] at hlen
  have hempty : m.vTaskList.isEmpty = n.vTaskList.isEmpty := by
    cases hm : m.vTaskList <;> cases hn : n.vTaskList <;> simp_all
  simp only [memOn, nodeMem, hid, hmodels, hempty]

theorem nodeMem_single {id : Int} (h : n.vTaskList.map (·.id) = [id]) :
    s.nodeMem n = s.mapModelIDtoMemSize id + defaultPytorchMemUsage := by
  obtain ⟨t, ht, rfl⟩ := List.map_eq_singleton_iff.mp h
  simp [nodeMem, modelMem, ht]

end Scheduler

/-! ## The books -/

/-- Memory in use and in total, of every GPU. -/
def SimState.memory (sim : SimState) : List (Int × Int) :=
  sim.vGPUList.map fun g => (g.usedMemory, g.totalMemory)

/-- The memory in use is what the nodes need, less a gpu-let that is not
charged yet, and is within the limit. -/
structure Booked (s : Scheduler) (c : Core) : Prop where
  homed : Homed c.sim
  devices : c.sim.memory ≠ []
  placed : ∀ a, c.uncharged = some a → ∃ n, c.sim.node? a = some n ∧
    n.vTaskList.map (·.id) = [c.task.id]
  used : ∀ (i : Nat) (u total : Int), c.sim.memory[i]? = some (u, total) →
    u = c.sim.totalBut (s.memOn i) c.uncharged ∧ (u : ℚ) ≤ total * memRoom

/-- Steps that leave the memory in use as it is. -/
def Action.keepsMemory : Action → Bool
  | initDevs _ | wipe .. | charge .. => false
  | _ => true

theorem SimState.memory_modifyGPU {sim : SimState} {j : Nat} {f : GPU → GPU}
    (h : ∀ g, (f g).usedMemory = g.usedMemory ∧ (f g).totalMemory = g.totalMemory) :
    (sim.modifyGPU j f).memory = sim.memory := by
  apply List.ext_getElem?
  intro i
  simp only [memory, List.getElem?_map, getElem?_modifyGPU]
  split
  · cases sim.vGPUList[i]? with
    | none => rfl
    | some g => simp only [Option.map_some, (h g).1, (h g).2]
  · rfl

theorem SimState.memory_setNode (sim : SimState) (a : Addr) (n : Node) :
    (sim.setNode a n).memory = sim.memory :=
  memory_modifyGPU fun _ => ⟨rfl, rfl⟩

theorem SimState.memory_pushNode (sim : SimState) (j : Nat) (n : Node) :
    (sim.pushNode j n).memory = sim.memory :=
  memory_modifyGPU fun _ => ⟨rfl, rfl⟩

theorem Core.write_memory (c : Core) (a : Addr) (f : Node → Node) :
    (c.write a f).sim.memory = c.sim.memory := by
  unfold write
  split
  · exact SimState.memory_setNode ..
  · rfl

theorem Action.memory_quiet (repart : Bool) (c : Core) (hq : act.isQuiet = true)
    (h : act.keepsMemory = true) : (act.apply repart c).sim.memory = c.sim.memory := by
  cases act <;> simp only [isQuiet, keepsMemory, Bool.false_eq_true] at hq h
  case markLoaded => simp [apply, SimState.memory, Function.comp_def, markLoadedParts]
  all_goals rfl

theorem Action.memory_apply (repart : Bool) (c : Core) (h : act.keepsMemory = true) :
    (act.apply repart c).sim.memory = c.sim.memory := by
  rcases kinds repart c act with ⟨a, f, hw⟩ | hq | ⟨gpus, rfl⟩ | ⟨a, part, rfl⟩ | ⟨g, rfl⟩
  · rcases apply_writes hw with hsim | ⟨used, rfl, -⟩
    · rw [hsim, Core.write_memory]
    · cases h
  · exact memory_quiet repart c hq h
  · cases h
  · simp only [apply]
    split
    · rw [SimState.memory_pushNode, SimState.memory_setNode]
    · rfl
  · exact SimState.memory_modifyGPU fun _ => ⟨rfl, rfl⟩

/-- A node that hosts something is left alone by a step that rewrites nothing. -/
theorem Action.node?_hosting (hd : Detail s c act) (hw : act.writes s.useRepartition c = none)
    (hn : c.sim.node? a = some n) (hne : n.vTaskList ≠ []) :
    (act.apply s.useRepartition c).sim.node? a = some n := by
  rcases kinds s.useRepartition c act with ⟨b, f, hw'⟩ | hq | ⟨gpus, rfl⟩ | ⟨b, part, rfl⟩ | ⟨g, rfl⟩
  · rw [hw] at hw'
    cases hw'
  · rw [node?_quiet hq, hn]
  · obtain ⟨hnil, -⟩ := hd
    simp [SimState.node?, hnil] at hn
  · obtain ⟨m, gpu, hm, hnil, -, -, -, hgpu⟩ := hd
    rw [split_node? hm hgpu]
    split
    case isTrue heq =>
      rw [heq, SimState.node?_length hgpu] at hn
      cases hn
    case isFalse =>
      split
      case isTrue heq =>
        rw [heq, hm] at hn
        obtain rfl := Option.some.inj hn
        exact absurd hnil hne
      case isFalse => exact hn
  · obtain ⟨gpu, hgpu, -, hnil⟩ := hd
    obtain ⟨gpu', hgpu', hmem⟩ := SimState.gpu_of_node? hn
    have hg : g ≠ a.gpu := by
      rintro rfl
      obtain rfl : gpu = gpu' := Option.some.inj (hgpu.symm.trans hgpu')
      exact hne (hnil n (List.mem_of_getElem? hmem))
    simp only [apply]
    rw [SimState.node?_modifyGPU_ne _ hg]
    exact hn

/-! ## Steps -/

/-- A step that keeps the books: what is placed is charged, on a node that
hosts nothing else, and nothing is taken away behind `addGPUMemUsage`'s back. -/
def keepsBooks (c : Core) : Action → Bool
  | .forget _ | .wipe .. | .merged .. | .skipCharge _ => false
  | .share a .. => (c.sim.node? a).all fun n => n.vTaskList.isEmpty
  | _ => true

/-- The node of a step that fills one is empty before it, and hosts the task
alone afterwards. -/
theorem filled_node (hd : Detail s c act) (hok : keepsBooks c act = true)
    (hfills : act.fills = some a) (hw : act.writes s.useRepartition c = some (a, f))
    (hn : c.sim.node? a = some n) :
    n.vTaskList = [] ∧ (f n).vTaskList.map (·.id) = [c.task.id] := by
  cases act <;> simp only [Action.fills, Option.some.injEq, reduceCtorEq] at hfills
  all_goals
    subst hfills
    simp only [Action.writes, Option.some.injEq, Prod.mk.injEq, true_and] at hw
    subst hw
  case fit b org checked =>
      obtain ⟨m, gpu, e, d, v, hm, hnil, -, -, hlet, -⟩ := hd.target
      obtain rfl : n = m := Option.some.inj (hn.symm.trans hm)
      exact ⟨hnil, by simp [copyToNode, hlet.tasks, hlet.id_eq]⟩
  case place b kind t duty occ =>
      obtain ⟨m, k, v, hm, hnil, -⟩ := hd.target
      obtain rfl : n = m := Option.some.inj (hn.symm.trans hm)
      exact ⟨hnil, by simp [hnil, hd.id_eq]⟩
  case merged => cases hok
  case share b t duty occ left =>
      have hnil : n.vTaskList = [] := by simpa [keepsBooks, hn] using hok
      refine ⟨hnil, ?_⟩
      rw [hd.new_eq]
      simp [hnil, Scheduler.createNewTask]

/-- Rewriting a node that it does not fill leaves its models as they are. -/
theorem unfilled_node (hd : Detail s c act) (hok : keepsBooks c act = true)
    (hfills : act.fills = none) (hrevert : ∀ b, act ≠ .revert b)
    (hw : act.writes s.useRepartition c = some (a, f)) (hn : c.sim.node? a = some n) :
    (f n).vTaskList.map (·.id) = n.vTaskList.map (·.id) := by
  cases act <;> simp only [Action.writes, Option.some.injEq, Prod.mk.injEq, reduceCtorEq] at hw
  all_goals obtain ⟨rfl, rfl⟩ := hw
  case occupy | prime => rfl
  case adjust b n' =>
      obtain ⟨-, m, hm, hadj⟩ := hd
      obtain rfl : n = m := Option.some.inj (hn.symm.trans hm)
      exact hadj.ids_eq
  case revert b => exact absurd rfl (hrevert b)
  case forget | wipe => cases hok
  case fit | place | merged | share => cases hfills

section Steps

variable (hmem : s.checkMem = true) (hd : Detail s c act) (hok : keepsBooks c act = true)
include hmem hd hok

/-- What is not charged yet, after a step that does not rewrite a node. -/
theorem uncharged_quiet (hk : act.keepsMemory = true)
    (hw : act.writes s.useRepartition c = none) :
    (act.apply s.useRepartition c).uncharged = c.uncharged := by
  cases act <;> simp only [Action.writes, Action.keepsMemory, keepsBooks, reduceCtorEq] at hw hk hok
  case leave => exact (hd.2 hmem).symm
  case split =>
      simp only [Action.apply]
      split <;> rfl
  all_goals simp [Action.apply, Core.setRate]

/-- What is not charged yet, after a step that rewrites one: a node that it
fills, and otherwise what it was unless it is taken back. -/
theorem uncharged_writes (hw : act.writes s.useRepartition c = some (a, f)) :
    (act.fills = some a ∧ c.uncharged = none ∧
        (act.apply s.useRepartition c).uncharged = some a) ∨
      ((∀ n, (f n).vTaskList = []) ∧ c.uncharged = some a ∧
        (act.apply s.useRepartition c).uncharged = none) ∨
      (act.fills = none ∧ (∀ b, act ≠ .revert b) ∧
        (act.apply s.useRepartition c).uncharged = c.uncharged) := by
  cases act <;> simp only [Action.writes, Option.some.injEq, Prod.mk.injEq, reduceCtorEq] at hw
  all_goals obtain ⟨rfl, rfl⟩ := hw
  case forget | wipe | merged => cases hok
  case fit | place | share => exact Or.inl ⟨rfl, hd.charged hmem, rfl⟩
  case revert => exact Or.inr (Or.inl ⟨fun _ => rfl, hd.2.2.1, rfl⟩)
  case occupy | prime | adjust =>
      refine Or.inr (Or.inr ⟨rfl, (fun b hb => by cases hb), ?_⟩)
      simp [Action.apply]

/-- Unless it charges, a step changes neither the memory in use nor what is
charged. -/
theorem totalBut_books (hk : act.keepsMemory = true) (i : Nat) :
    (act.apply s.useRepartition c).sim.totalBut (s.memOn i)
      (act.apply s.useRepartition c).uncharged = c.sim.totalBut (s.memOn i) c.uncharged := by
  cases hw : act.writes s.useRepartition c with
  | none =>
      rw [totalBut_apply (fun _ => Scheduler.memOn_empty) hd hw, uncharged_quiet hmem hd hok hk hw]
  | some p =>
      obtain ⟨a, f⟩ := p
      obtain ⟨n, hn⟩ := hd.written hw
      rw [totalBut_writes s.useRepartition act hw hn]
      rcases uncharged_writes hmem hd hok hw with ⟨hfills, hold, hnew⟩ | ⟨hnil, hold, hnew⟩ |
        ⟨hfills, hrevert, hsame⟩
      · rw [hnew, hold, if_pos rfl, SimState.totalBut_some hn, SimState.totalBut_none,
          Scheduler.memOn_empty (filled_node hd hok hfills hw hn).1, sub_zero]
      · rw [hnew, hold, if_neg (by simp), SimState.totalBut_some hn, SimState.totalBut_none,
          Scheduler.memOn_empty (hnil n), zero_sub, sub_eq_add_neg]
      · rw [hsame, Scheduler.memOn_ids (hd.writes_id hw hn).1
          (unfilled_node hd hok hfills hrevert hw hn), sub_self, add_zero, ite_self]

/-- No task starts before the last gpu-let is charged. -/
theorem task_books {b : Addr} (hb : (act.apply s.useRepartition c).uncharged = some b) :
    (act.apply s.useRepartition c).task.id = c.task.id := by
  cases act
  case start t =>
      have hsame : ((Action.start t).apply s.useRepartition c).uncharged = c.uncharged := rfl
      rw [hsame, hd hmem] at hb
      cases hb
  case split =>
      simp only [Action.apply]
      split <;> rfl
  all_goals simp [Action.apply, Core.setRate]

/-- The node that is not charged yet hosts the task alone. -/
theorem placed_books (hk : act.keepsMemory = true) (h : Booked s c) {b : Addr}
    (hb : (act.apply s.useRepartition c).uncharged = some b) :
    ∃ n, (act.apply s.useRepartition c).sim.node? b = some n ∧
      n.vTaskList.map (·.id) = [(act.apply s.useRepartition c).task.id] := by
  rw [task_books hmem hd hok hb]
  cases hw : act.writes s.useRepartition c with
  | none =>
      rw [uncharged_quiet hmem hd hok hk hw] at hb
      obtain ⟨n, hn, hids⟩ := h.placed b hb
      refine ⟨n, Action.node?_hosting hd hw hn ?_, hids⟩
      intro hnil
      rw [hnil] at hids
      cases hids
  | some p =>
      obtain ⟨a, f⟩ := p
      obtain ⟨n, hn⟩ := hd.written hw
      rw [Action.node?_writes hw]
      rcases uncharged_writes hmem hd hok hw with ⟨hfills, -, hnew⟩ | ⟨-, -, hnew⟩ |
        ⟨hfills, hrevert, hsame⟩
      · obtain rfl : a = b := Option.some.inj (hnew.symm.trans hb)
        exact ⟨f n, by rw [if_pos rfl, hn]; rfl, (filled_node hd hok hfills hw hn).2⟩
      · rw [hnew] at hb
        cases hb
      · rw [hsame] at hb
        obtain ⟨m, hm, hids⟩ := h.placed b hb
        split
        case isTrue heq =>
          rw [heq] at hm
          obtain rfl : n = m := Option.some.inj (hn.symm.trans hm)
          exact ⟨f n, by rw [hn]; rfl, (unfilled_node hd hok hfills hrevert hw hn).trans hids⟩
        case isFalse => exact ⟨m, hm, hids⟩

end Steps

/-- The charge of `addGPUMemUsage`. The model is on the node already, so that
it is not loaded means that the part is not: the framework is charged too. -/
theorem charged_memory {gpu : GPU} {id used : Int} {m : MemNode}
    (h : s.addedGPUMemUsage gpu id n = .ok (some (used, m))) (hn : n ∈ gpu.vNodeList)
    (hids : n.vTaskList.map (·.id) = [id]) :
    used = gpu.usedMemory + s.nodeMem n ∧ (used : ℚ) ≤ gpu.totalMemory * memRoom := by
  obtain ⟨hload, hused, -, hlt⟩ := Scheduler.addedGPUMemUsage_ok h
  have hhosted : (gpu.vNodeList.any fun m => m.resourcePntg == n.resourcePntg &&
      m.dedupNum == n.dedupNum && m.vTaskList.any fun t => t.id == id) = true := by
    refine List.any_eq_true.mpr ⟨n, hn, ?_⟩
    obtain ⟨t, ht, rfl⟩ := List.map_eq_singleton_iff.mp hids
    simp [ht]
  have hpart : isPartLoaded gpu n = false := by
    rw [isModelLoaded, hhosted, Bool.and_true] at hload
    exact hload
  refine ⟨?_, hlt.le⟩
  rw [hused, Scheduler.requiredMemory, hpart, Scheduler.nodeMem_single hids]
  rfl

theorem Booked.charge {g : Nat} {used : Int} {m : MemNode} (h : Booked s c)
    (hd : Detail s c (.charge a g used m)) :
    Booked s ((Action.charge a g used m).apply s.useRepartition c) := by
  obtain ⟨n, hn', hids⟩ := h.placed a hd.1
  have hhome := h.homed.apply hd
  have htotal : ∀ i, ((Action.charge a g used m).apply s.useRepartition c).sim.totalBut
      (s.memOn i) none = c.sim.total (s.memOn i) := fun i => by
    rw [totalBut_apply (fun _ => Scheduler.memOn_empty) hd rfl, SimState.totalBut_none]
  obtain ⟨hun, n', gpu, hn, rfl, hgpu, hadd⟩ := hd
  obtain rfl : n = n' := Option.some.inj (hn'.symm.trans hn)
  obtain ⟨gpu', hgpu', hmem⟩ := SimState.gpu_of_node? hn
  rw [← h.homed.node_id hn] at hgpu'
  obtain rfl : gpu = gpu' := Option.some.inj (hgpu.symm.trans hgpu')
  obtain ⟨hused, hlimit⟩ := charged_memory hadd (List.mem_of_getElem? hmem) hids
  have hbefore : ∀ (i : Nat) (u total : Int), c.sim.memory[i]? = some (u, total) →
      u = c.sim.total (s.memOn i) - s.memOn i n ∧ (u : ℚ) ≤ total * memRoom := by
    intro i u total hi
    obtain ⟨hu, hle⟩ := h.used i u total hi
    rw [hun, SimState.totalBut_some hn] at hu
    exact ⟨hu, hle⟩
  refine ⟨hhome, ?_, fun b hb => (by cases hb), ?_⟩
  · have hlen : ((Action.charge a n.id used m).apply s.useRepartition c).sim.memory.length =
        c.sim.memory.length := by
      simp [SimState.memory, Action.apply, SimState.modifyGPU]
    intro hnil
    rw [hnil] at hlen
    exact h.devices (List.length_eq_zero_iff.mp hlen.symm)
  · intro i u total hi
    have hnone : ((Action.charge a n.id used m).apply s.useRepartition c).uncharged = none := rfl
    rw [hnone, htotal]
    simp only [SimState.memory, Action.apply, List.getElem?_map, SimState.getElem?_modifyGPU] at hi
    split at hi
    case isTrue heq =>
      subst heq
      simp only [hgpu, Option.map_some, Option.some.injEq, Prod.mk.injEq] at hi
      obtain ⟨rfl, rfl⟩ := hi
      have hold := (hbefore n.id gpu.usedMemory gpu.totalMemory
        (by simp [SimState.memory, hgpu])).1
      rw [Scheduler.memOn, if_pos rfl] at hold
      exact ⟨by rw [hused, hold, sub_add_cancel], hlimit⟩
    case isFalse hne =>
      have hold := hbefore i u total (by simpa [SimState.memory] using hi)
      rw [Scheduler.memOn, if_neg hne, sub_zero] at hold
      exact hold

theorem Booked.apply (hmem : s.checkMem = true) (h : Booked s c) (hd : Detail s c act)
    (hok : keepsBooks c act = true) : Booked s (act.apply s.useRepartition c) := by
  cases hk : act.keepsMemory with
  | true =>
      have hsame := Action.memory_apply s.useRepartition c hk
      refine ⟨h.homed.apply hd, by rw [hsame]; exact h.devices,
        fun a ha => placed_books hmem hd hok hk h ha, ?_⟩
      intro i u total hi
      rw [hsame] at hi
      rw [totalBut_books hmem hd hok hk]
      exact h.used i u total hi
  | false =>
      cases act <;> simp only [Action.keepsMemory, Bool.true_eq_false] at hk
      case initDevs gpus =>
          obtain ⟨hnil, -⟩ := hd
          exact absurd (by simp [SimState.memory, hnil]) h.devices
      case wipe => cases hok
      case charge a g used m => exact h.charge hd

/-! ## Runs -/

theorem Fresh.devices {sim : SimState} (h : Fresh s sim) : sim.memory ≠ [] := by
  obtain ⟨input, nDevs, h⟩ := h
  simp only [Scheduler.initDevMems, Query.bind_ok, Query.pure_ok, assert_ok] at h
  obtain ⟨-, hne, rfl⟩ := h
  cases hgpus : (s.initiateDevs input nDevs).vGPUList with
  | nil => exact absurd hgpus hne
  | cons g gs =>
      cases s.deviceTypes <;> simp [SimState.memory, Scheduler.initDevMemsFrom]

theorem Booked.init {sim : SimState} (h : Fresh s sim) : Booked s (Core.init sim) where
  homed := h.homed
  devices := h.devices
  placed := by
    intro a ha
    cases ha
  used := by
    intro i u total hi
    have hinit : (Core.init sim).uncharged = none := rfl
    rw [hinit, SimState.totalBut_none]
    have hzero : sim.total (s.memOn i) = 0 := h.total fun _ => Scheduler.memOn_empty
    have hmap : (sim.vGPUList.map fun g => (g.usedMemory, g.totalMemory))[i]? = some (u, total) := hi
    rw [List.getElem?_map] at hmap
    obtain ⟨g, hg, heq⟩ := Option.map_eq_some_iff.mp hmap
    obtain ⟨-, hused, htotal⟩ := h.gpu hg
    obtain ⟨rfl, rfl⟩ := Prod.mk.injEq .. |>.mp heq
    refine ⟨hused.trans hzero.symm, ?_⟩
    have hroom : (0 : ℚ) ≤ g.totalMemory := by exact_mod_cast htotal
    rw [hused]
    simp only [memRoom]
    positivity

/-- **Memory accounting.** In a CHECK_MEM build, after a run on a fresh
decision whose steps keep the books, every GPU uses the framework's memory for
each node that hosts a task and the memory of every entry's model, and no more
than `memRoom` of what it has. -/
theorem memory_accounted {table : SatTable} {tasks : List Task} {prev out : SimState}
    {repart : Bool} {o : Outcome} (hmem : s.checkMem = true) (htab : Built s table)
    (hfresh : Fresh s prev) (h : s.runScheduling table tasks prev out repart = .ok o)
    (hok : ∀ p ∈ o.log, keepsBooks p.1 p.2 = true) {g : GPU} (hg : g ∈ o.prev.vGPUList) :
    g.usedMemory = s.requiredMem g ∧ (s.requiredMem g : ℚ) ≤ g.totalMemory * memRoom := by
  obtain ⟨-, r', hruns, hlog, hprev, -, -, hset⟩ := Scheduler.runScheduling_ok htab h
  have hinit : Booked s (Core.init prev) := .init hfresh
  have hbooked : Booked (s.withRepart repart) r'.cur := by
    refine hruns.invariant (I := Booked (s.withRepart repart))
      (C := fun c act => keepsBooks c act = true) ?_ (fun p hp => hok p (hlog ▸ hp))
      ⟨hinit.homed, hinit.devices, hinit.placed, hinit.used⟩
    intro c act hc hguard hC
    exact hc.apply hmem hguard.1.1 hC
  rw [hprev] at hg
  obtain ⟨i, hi⟩ := List.getElem?_of_mem hg
  obtain ⟨hused, hlimit⟩ := hbooked.used i g.usedMemory g.totalMemory
    (by simp [SimState.memory, hi])
  rw [hset.uncharged hmem, SimState.totalBut_none] at hused
  have hrequired : g.usedMemory = s.requiredMem g := by
    rw [Scheduler.requiredMem_eq, hbooked.homed.total_gpu _ hi]
    exact hused
  exact ⟨hrequired, hrequired ▸ hlimit⟩

/-- Two models on two GPUs. -/
theorem memory_accounted_apart :
    ∃ o g, (Scheduler.plain (Scheduler.profile [100] fun _ _ => 5) [100] 2).firstRun
        [Scheduler.request 0 100 30, Scheduler.request 1 51 60] true = .ok o ∧
      o.ret = .success ∧ g ∈ o.prev.vGPUList ∧ g.usedMemory = 1280 ∧
      g.usedMemory =
        (Scheduler.plain (Scheduler.profile [100] fun _ _ => 5) [100] 2).requiredMem g := by
  obtain ⟨o, hrun, ho⟩ := Query.of_returns
    (q := (Scheduler.plain (Scheduler.profile [100] fun _ _ => 5) [100] 2).firstRun
      [Scheduler.request 0 100 30, Scheduler.request 1 51 60] true)
    (p := fun o => decide (o.ret = .success) && (o.prev.vGPUList.any fun g =>
      decide (g.usedMemory = 1280)) && o.log.all fun p => keepsBooks p.1 p.2)
    (by decide +kernel)
  obtain ⟨hends, hok⟩ := Bool.and_eq_true_iff.mp ho
  obtain ⟨hret, hany⟩ := Bool.and_eq_true_iff.mp hends
  obtain ⟨g, hg, hused⟩ := List.any_eq_true.mp hany
  have hbooks := memory_accounted
    (s := Scheduler.plain (Scheduler.profile [100] fun _ _ => 5) [100] 2) rfl .empty
    (Scheduler.setUp_fresh rfl) hrun (List.all_eq_true.mp hok) hg
  exact ⟨o, g, hrun, of_decide_eq_true hret, hg, of_decide_eq_true hused, hbooks.1⟩

/-- Two models that share a node: the second one is not charged. -/
theorem shared_model_not_charged :
    ∃ o g, (Scheduler.plain (Scheduler.profile [100] fun _ _ => 5) [100] 1).firstRun
        [Scheduler.request 0 100 30, Scheduler.request 1 51 60] true = .ok o ∧
      o.ret = .success ∧ g ∈ o.prev.vGPUList ∧ g.usedMemory = 1280 ∧
      (Scheduler.plain (Scheduler.profile [100] fun _ _ => 5) [100] 1).requiredMem g = 1330 := by
  obtain ⟨o, hrun, ho⟩ := Query.of_returns
    (q := (Scheduler.plain (Scheduler.profile [100] fun _ _ => 5) [100] 1).firstRun
      [Scheduler.request 0 100 30, Scheduler.request 1 51 60] true)
    (p := fun o => decide (o.ret = .success) && o.prev.vGPUList.any fun g =>
      decide (g.usedMemory = 1280 ∧
        (Scheduler.plain (Scheduler.profile [100] fun _ _ => 5) [100] 1).requiredMem g = 1330))
    (by decide +kernel)
  obtain ⟨hret, hany⟩ := Bool.and_eq_true_iff.mp ho
  obtain ⟨g, hg, hbooks⟩ := List.any_eq_true.mp hany
  obtain ⟨hused, hrequired⟩ := of_decide_eq_true hbooks
  exact ⟨o, g, hrun, of_decide_eq_true hret, hg, hused, hrequired⟩

end Glet
