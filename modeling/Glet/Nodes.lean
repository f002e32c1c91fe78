import Glet.Actions
import Mathlib.Algebra.BigOperators.Group.List.Basic

/-!
# Nodes of a decision

How the updates of a decision (`setNode`, `pushNode`, `modifyGPU`) show at
an address and in a sum over nodes. Invariants are read at addresses
(`node?`); rates, memory and bandwidth are sums over the nodes of a GPU
(`GPU.total`) or of the whole decision (`SimState.total`).
-/

namespace Glet

/-! ## Addresses -/

namespace SimState

variable {sim : SimState} {a b : Addr} {n n' : Node} {g : GPU} {i : Nat}

theorem gpu_of_node? (h : sim.node? a = some n) :
    ∃ g, sim.vGPUList[a.gpu]? = some g ∧ g.vNodeList[a.node]? = some n := by
  simpa only [node?, Option.bind_eq_some_iff] using h

theorem node?_of_gpu (hg : sim.vGPUList[a.gpu]? = some g) (hn : g.vNodeList[a.node]? = some n) :
    sim.node? a = some n := by
  rw [node?, hg]
  exact hn

theorem getElem?_modifyGPU (sim : SimState) (i j : Nat) (f : GPU → GPU) :
    (sim.modifyGPU i f).vGPUList[j]? =
      if i = j then (sim.vGPUList[j]?).map f else sim.vGPUList[j]? := by
  simp only [modifyGPU, List.getElem?_modify]
  split <;> simp_all

theorem node?_modifyGPU_ne (f : GPU → GPU) (h : i ≠ b.gpu) :
    (sim.modifyGPU i f).node? b = sim.node? b := by
  simp only [node?, getElem?_modifyGPU, if_neg h]

/-- An update of a GPU that leaves its nodes alone. -/
theorem node?_modifyGPU {f : GPU → GPU} (hf : ∀ g, (f g).vNodeList = g.vNodeList) :
    (sim.modifyGPU i f).node? b = sim.node? b := by
  simp only [node?, getElem?_modifyGPU]
  split
  · cases sim.vGPUList[b.gpu]? <;> simp [hf]
  · rfl

theorem node?_setNode_self (h : sim.node? a = some n) :
    (sim.setNode a n').node? a = some n' := by
  obtain ⟨g, hg, hn⟩ := gpu_of_node? h
  have hlt := (List.getElem?_eq_some_iff.mp hn).1
  simp [node?, setNode, getElem?_modifyGPU, hg, List.getElem?_set_self hlt]

theorem node?_setNode_ne (h : b ≠ a) : (sim.setNode a n').node? b = sim.node? b := by
  by_cases hgpu : a.gpu = b.gpu
  · have hnode : a.node ≠ b.node := by
      intro heq
      exact h (by cases a; cases b; simp_all)
    simp only [node?, setNode, getElem?_modifyGPU, if_pos hgpu]
    cases sim.vGPUList[b.gpu]? with
    | none => rfl
    | some g => simp [List.getElem?_set_ne hnode]
  · exact node?_modifyGPU_ne _ hgpu

theorem node?_setNode (h : sim.node? a = some n) :
    (sim.setNode a n').node? b = if b = a then some n' else sim.node? b := by
  by_cases hb : b = a
  · rw [if_pos hb, hb, node?_setNode_self h]
  · rw [if_neg hb, node?_setNode_ne hb]

theorem node?_pushNode (hg : sim.vGPUList[i]? = some g) :
    (sim.pushNode i n').node? b =
      if b = ⟨i, g.vNodeList.length⟩ then some n' else sim.node? b := by
  by_cases hgpu : i = b.gpu
  · obtain ⟨bg, bn⟩ := b
    obtain rfl : i = bg := hgpu
    simp only [node?, pushNode, getElem?_modifyGPU, if_true, hg, Option.map_some,
      Option.bind_some, Addr.mk.injEq, true_and]
    rcases lt_trichotomy bn g.vNodeList.length with h | h | h
    · rw [List.getElem?_append_left h, if_neg (by omega)]
    · simp [h]
    · rw [if_neg (by omega), List.getElem?_eq_none (by simp; omega),
        List.getElem?_eq_none (by omega)]
  · rw [pushNode, node?_modifyGPU_ne _ hgpu, if_neg]
    rintro rfl
    exact hgpu rfl

/-- The address a pushed node gets was free. -/
theorem node?_length (hg : sim.vGPUList[i]? = some g) :
    sim.node? ⟨i, g.vNodeList.length⟩ = none := by
  simp [node?, hg]

theorem mem_addrs : a ∈ sim.addrs ↔ ∃ n, sim.node? a = some n := by
  obtain ⟨i, j⟩ := a
  simp only [addrs, List.mem_flatMap, List.mem_map, List.mem_range, Prod.exists,
    List.mem_zipIdx_iff_getElem?, Addr.mk.injEq]
  constructor
  · rintro ⟨g, i', hg, j', hj, rfl, rfl⟩
    exact ⟨_, node?_of_gpu hg (List.getElem?_eq_getElem hj)⟩
  · rintro ⟨n, hn⟩
    obtain ⟨g, hg, hn⟩ := gpu_of_node? hn
    exact ⟨g, i, hg, j, (List.getElem?_eq_some_iff.mp hn).1, rfl, rfl⟩

theorem addrs_nodup (sim : SimState) : sim.addrs.Nodup := by
  have hnodup : (sim.vGPUList.zipIdx.map (·.2)).Nodup := by
    rw [List.zipIdx_map_snd]
    exact List.nodup_range'
  rw [addrs, List.nodup_flatMap]
  constructor
  · rintro ⟨g, i⟩ -
    refine List.Nodup.map ?_ List.nodup_range
    intro j j' h
    exact congrArg Addr.node h
  · have hpair := List.pairwise_map.mp hnodup
    refine hpair.imp ?_
    rintro ⟨g, i⟩ ⟨g', i'⟩ hne b hb hb'
    obtain ⟨j, -, rfl⟩ := List.mem_map.mp hb
    obtain ⟨j', -, heq⟩ := List.mem_map.mp hb'
    exact hne (congrArg Addr.gpu heq).symm

theorem mem_nodes : n ∈ sim.nodes ↔ ∃ a, sim.node? a = some n := by
  simp only [nodes, List.mem_flatMap]
  constructor
  · rintro ⟨g, hg, hn⟩
    obtain ⟨i, hi⟩ := List.mem_iff_getElem?.mp hg
    obtain ⟨j, hj⟩ := List.mem_iff_getElem?.mp hn
    exact ⟨⟨i, j⟩, node?_of_gpu hi hj⟩
  · rintro ⟨a, ha⟩
    obtain ⟨g, hg, hn⟩ := gpu_of_node? ha
    exact ⟨g, List.mem_of_getElem? hg, List.mem_of_getElem? hn⟩

end SimState

/-! ## Sums over nodes -/

section Sums

variable {M : Type} [AddCommGroup M]

theorem sum_map_set {α : Type} {l : List α} {i : Nat} {x y : α} (F : α → M)
    (h : l[i]? = some x) : ((l.set i y).map F).sum = (l.map F).sum + (F y - F x) := by
  induction l generalizing i with
  | nil => simp at h
  | cons z l ih =>
      cases i with
      | zero =>
          obtain rfl : z = x := by simpa using h
          simp only [List.set_cons_zero, List.map_cons, List.sum_cons]
          abel
      | succ i =>
          simp only [List.set_cons_succ, List.map_cons, List.sum_cons, ih (by simpa using h)]
          abel

theorem sum_map_modify {α : Type} {l : List α} {i : Nat} {x : α} (F : α → M) (f : α → α)
    (h : l[i]? = some x) : ((l.modify i f).map F).sum = (l.map F).sum + (F (f x) - F x) := by
  have hset : l.modify i f = l.set i (f x) := by
    apply List.ext_getElem?
    intro j
    rw [List.getElem?_modify, List.getElem?_set]
    by_cases hj : i = j
    · subst hj
      obtain ⟨hlt, rfl⟩ := List.getElem?_eq_some_iff.mp h
      simp [hlt]
    · simp [hj]
  rw [hset, sum_map_set F h]

/-- A quantity summed over the nodes of a GPU. -/
def GPU.total (F : Node → M) (g : GPU) : M := (g.vNodeList.map F).sum

/-- A quantity summed over the nodes of a decision. -/
def SimState.total (F : Node → M) (sim : SimState) : M :=
  (sim.vGPUList.map (GPU.total F)).sum

theorem GPU.total_set {g : GPU} {j : Nat} {n n' : Node} (F : Node → M)
    (h : g.vNodeList[j]? = some n) :
    GPU.total F { g with vNodeList := g.vNodeList.set j n' } = g.total F + (F n' - F n) :=
  sum_map_set F h

theorem GPU.total_append (F : Node → M) (g : GPU) (n : Node) :
    GPU.total F { g with vNodeList := g.vNodeList ++ [n] } = g.total F + F n := by
  simp [GPU.total]

namespace SimState

variable {sim : SimState} {a : Addr} {n n' : Node} {g : GPU} {i : Nat} (F : Node → M)

theorem total_eq_nodes (sim : SimState) : sim.total F = (sim.nodes.map F).sum := by
  simp only [total, nodes, List.flatMap, List.map_flatten, List.sum_flatten, List.map_map]
  rfl

theorem total_modifyGPU (f : GPU → GPU) (h : sim.vGPUList[i]? = some g) :
    (sim.modifyGPU i f).total F = sim.total F + ((f g).total F - g.total F) :=
  sum_map_modify (GPU.total F) f h

/-- Outside the list an update of a GPU does nothing. -/
theorem modifyGPU_of_none (f : GPU → GPU) (h : sim.vGPUList[i]? = none) :
    sim.modifyGPU i f = sim := by
  have hlen := List.getElem?_eq_none_iff.mp h
  simp [modifyGPU, List.modify_eq_self hlen]

theorem total_modifyGPU_same {f : GPU → GPU} (hf : ∀ g, (f g).total F = g.total F) :
    (sim.modifyGPU i f).total F = sim.total F := by
  cases h : sim.vGPUList[i]? with
  | none => rw [modifyGPU_of_none f h]
  | some g => rw [total_modifyGPU F f h, hf, sub_self, add_zero]

theorem total_setNode (h : sim.node? a = some n) :
    (sim.setNode a n').total F = sim.total F + (F n' - F n) := by
  obtain ⟨g, hg, hn⟩ := gpu_of_node? h
  rw [setNode, total_modifyGPU F _ hg, GPU.total_set F hn, add_sub_cancel_left]

theorem total_pushNode (hg : sim.vGPUList[i]? = some g) :
    (sim.pushNode i n').total F = sim.total F + F n' := by
  rw [pushNode, total_modifyGPU F _ hg, GPU.total_append, add_sub_cancel_left]

end SimState

end Sums

/-! ## Writing a node -/

namespace Core

variable {c : Core} {a : Addr} {f : Node → Node} {n : Node}

theorem write_of_node (h : c.sim.node? a = some n) :
    c.write a f = { c with sim := c.sim.setNode a (f n) } := by
  rw [write, h]

@[simp] theorem write_task : (c.write a f).task = c.task := by
  unfold write; split <;> rfl

@[simp] theorem write_pending : (c.write a f).pending = c.pending := by
  unfold write; split <;> rfl

@[simp] theorem write_uncharged : (c.write a f).uncharged = c.uncharged := by
  unfold write; split <;> rfl

@[simp] theorem write_unchecked : (c.write a f).unchecked = c.unchecked := by
  unfold write; split <;> rfl

@[simp] theorem write_phase : (c.write a f).phase = c.phase := by
  unfold write; split <;> rfl

@[simp] theorem write_session : (c.write a f).session = c.session := by
  unfold write; split <;> rfl

end Core

end Glet
