import Glet.Effects
import Mathlib.Algebra.Order.BigOperators.Group.List

/-!
# The entries of one model

Sums over the entries of a model (`Node.sumOf`): its total throughput, or
the number of its entries. While another model is being scheduled its
entries are neither added nor removed (`count_other`); two actions may
change their throughput, time sharing and the interference adjustments.
`keepsOthers` is the condition that they lower none that is watched, and
under it the sums do not drop (`Runs.sumOf_le`).
-/

namespace Glet

open Recorder

/-! ## Entries -/

/-- The entries of a model on a node. -/
def Node.entries (id : Int) (n : Node) : List Task := n.vTaskList.filter fun t => t.id == id

theorem Node.entries_nil {id : Int} {n : Node} (h : n.vTaskList = []) : n.entries id = [] := by
  rw [entries, h]
  rfl

section Sums

variable {M : Type} [AddCommGroup M]

/-- A quantity summed over the entries of a model on a node. -/
def Node.sumOf (g : Task → M) (id : Int) (n : Node) : M := ((n.entries id).map g).sum

theorem Node.sumOf_nil (g : Task → M) (id : Int) (n : Node) (h : n.vTaskList = []) :
    n.sumOf g id = 0 := by
  rw [sumOf, entries_nil h]
  rfl

/-- A node with one entry, of the model. -/
theorem Node.sumOf_single (g : Task → M) {id : Int} {n : Node} {t : Task} (h : n.vTaskList = [t])
    (hid : t.id = id) : n.sumOf g id = g t := by
  simp [sumOf, entries, h, hid]

end Sums

theorem throughputOf_eq (id : Int) (sim : SimState) :
    throughputOf id sim = sim.total (Node.sumOf Task.throughput id) := by
  rw [SimState.total_eq_nodes, throughputOf]
  induction sim.nodes with
  | nil => rfl
  | cons n ns ih =>
      simp only [List.flatMap_cons, List.filter_append, List.map_append, List.sum_append,
        List.map_cons, List.sum_cons]
      rw [ih]
      rfl

/-- The number of entries of a model on a node. -/
def Node.count (id : Int) (n : Node) : Int := n.sumOf (fun _ => (1 : Int)) id

theorem Node.count_eq (id : Int) (n : Node) :
    n.count id = ((n.vTaskList.map (·.id)).count id : Nat) := by
  rw [count, sumOf, entries]
  induction n.vTaskList with
  | nil => rfl
  | cons t ts ih =>
      by_cases h : t.id = id
      · simp only [List.filter_cons, beq_iff_eq, h, if_true, List.map_cons, List.sum_cons,
          List.count_cons_self] at ih ⊢
        rw [ih]
        push_cast
        ring
      · simp only [List.filter_cons, beq_iff_eq, h, if_false, List.map_cons] at ih ⊢
        rw [ih, List.count_cons_of_ne h]

theorem Node.count_nonneg (id : Int) (n : Node) : 0 ≤ n.count id := by
  rw [count_eq]
  positivity

theorem Node.count_pos {id : Int} {n : Node} : 0 < n.count id ↔ ∃ t ∈ n.vTaskList, t.id = id := by
  rw [count_eq]
  simp only [Nat.cast_pos, List.count_pos_iff, List.mem_map]

/-- A model is hosted if it has an entry somewhere. -/
def hosted (id : Int) (sim : SimState) : Prop := ∃ n ∈ sim.nodes, ∃ t ∈ n.vTaskList, t.id = id

theorem hosted_iff {id : Int} {sim : SimState} : hosted id sim ↔ 0 < sim.total (Node.count id) := by
  rw [SimState.total_eq_nodes]
  constructor
  · rintro ⟨n, hn, hpos⟩
    have hone := Node.count_pos.mpr hpos
    have hle := List.single_le_sum (l := sim.nodes.map (Node.count id))
      (by simp only [List.mem_map]; rintro x ⟨m, -, rfl⟩; exact Node.count_nonneg id m)
      (n.count id) (List.mem_map.mpr ⟨n, hn, rfl⟩)
    omega
  · intro hpos
    by_contra hnot
    have hzero : (sim.nodes.map (Node.count id)).sum = 0 := by
      refine List.sum_eq_zero fun x hx => ?_
      obtain ⟨n, hn, rfl⟩ := List.mem_map.mp hx
      have := mt Node.count_pos.mp fun h => hnot ⟨n, hn, h⟩
      have := Node.count_nonneg id n
      omega
    omega

/-- New devices host nothing. -/
theorem not_hosted_new {id : Int} {sim : SimState}
    (h : ∀ i g, sim.vGPUList[i]? = some g → NewGPU i g) : ¬ hosted id sim := by
  have hzero : sim.total (Node.count id) = 0 := SimState.total_new (Node.sumOf_nil _ _) h
  rw [hosted_iff]
  omega

theorem isModelScheduled_iff {t : Task} {sim : SimState} :
    isModelScheduled t sim = true ↔ hosted t.id sim := by
  simp [isModelScheduled, hosted, List.any_eq_true]

/-- A model that is nowhere sums to nothing. -/
theorem SimState.total_not_hosted {M : Type} [AddCommGroup M] {id : Int} {sim : SimState}
    (g : Task → M) (h : ¬ hosted id sim) : sim.total (Node.sumOf g id) = 0 := by
  rw [total_eq_nodes, List.sum_eq_zero]
  intro x hx
  obtain ⟨n, hn, rfl⟩ := List.mem_map.mp hx
  have hnil : n.entries id = [] := by
    refine List.filter_eq_nil_iff.mpr fun t ht hid => h ⟨n, hn, t, ht, by simpa using hid⟩
  rw [Node.sumOf, hnil]
  rfl

/-! ## Other models -/

variable {s : Scheduler} {c : Core} {act : Action} {a : Addr} {f : Node → Node} {n : Node}
  {id : Int}

theorem entries_of_other {ts : List Task} (h : ∀ t ∈ ts, t.id ≠ id) :
    ts.filter (fun t => t.id == id) = [] :=
  List.filter_eq_nil_iff.mpr fun t ht => by simpa using h t ht

/-- A node whose only entry is of another model. -/
theorem Node.entries_single {t : Task} (h : n.vTaskList = [t]) (hne : t.id ≠ id) :
    n.entries id = [] := by
  refine entries_of_other fun u hu => ?_
  rw [h, List.mem_singleton] at hu
  rw [hu]
  exact hne

theorem entries_eraseP {ts : List Task} {id' : Int} (h : id ≠ id') :
    (ts.eraseP fun t => t.id == id').filter (fun t => t.id == id) =
      ts.filter fun t => t.id == id := by
  induction ts with
  | nil => rfl
  | cons t ts ih =>
      by_cases ht : t.id = id'
      · have hne : ¬ id' = id := fun h' => h h'.symm
        simp [ht, hne]
      · have hbeq : (t.id == id') = false := by simpa using ht
        simp only [List.eraseP_cons, List.filter_cons, hbeq, cond_false, ih]

/-- A residue node holds one entry, of the model. -/
theorem isResidueOf_single (h : Scheduler.isResidueOf id n = true) :
    ∃ t, n.vTaskList = [t] ∧ t.id = id := by
  unfold Scheduler.isResidueOf at h
  split at h
  case h_1 t hts =>
    simp only [Bool.and_eq_true, beq_iff_eq] at h
    exact ⟨t, hts, h.2⟩
  case h_2 => simp at h

/-- The entries of a model that is not the one being scheduled: only time
sharing and the interference adjustments touch them. -/
theorem Detail.entries_other (hd : Detail s c act)
    (hw : act.writes s.useRepartition c = some (a, f)) (hn : c.sim.node? a = some n)
    (hne : id ≠ c.task.id) :
    (f n).entries id = n.entries id ∨
      (∃ n', act = .adjust a n' ∧ f n = n' ∧ Scheduler.Adjusted s n n') ∨
      ∃ t duty occ left, act = .share a t duty occ left ∧ t.id ≠ id ∧
        (f n).vTaskList = n.vTaskList.map (retime duty) ++ [t] := by
  cases act <;> simp only [Action.writes, Option.some.injEq, Prod.mk.injEq, reduceCtorEq] at hw
  all_goals obtain ⟨rfl, rfl⟩ := hw
  case forget => exact Or.inl (entries_eraseP hne)
  case occupy => exact Or.inl rfl
  case fit b org checked =>
      obtain ⟨m, gpu, e, d, v, hm, hnil, -, -, hlet, -⟩ := hd.target
      obtain rfl : n = m := Option.some.inj (hn.symm.trans hm)
      rw [Node.entries_nil hnil]
      refine Or.inl (Node.entries_single hlet.tasks ?_)
      rw [hlet.id_eq]
      exact hne.symm
  case prime => exact Or.inl rfl
  case place b kind t duty occ =>
      obtain ⟨m, k, v, hm, hnil, -⟩ := hd.target
      obtain rfl : n = m := Option.some.inj (hn.symm.trans hm)
      rw [Node.entries_nil hnil]
      refine Or.inl (Node.entries_single (t := t) (by simp [hnil]) ?_)
      rw [hd.id_eq]
      exact hne.symm
  case revert b =>
      obtain ⟨-, -, -, m, hm, hids⟩ := hd
      obtain rfl : n = m := Option.some.inj (hn.symm.trans hm)
      have hold : n.entries id = [] := by
        refine entries_of_other fun t ht hid => ?_
        have hmem := List.mem_map_of_mem (f := fun t : Task => t.id) ht
        rw [hids, List.mem_singleton] at hmem
        exact hne (hid.symm.trans hmem)
      rw [hold]
      exact Or.inl (Node.entries_nil rfl)
  case adjust b n' =>
      obtain ⟨-, m, hm, hadj⟩ := hd
      obtain rfl : n = m := Option.some.inj (hn.symm.trans hm)
      exact Or.inr (Or.inl ⟨n', rfl, rfl, hadj⟩)
  case wipe b used =>
      obtain ⟨-, m, hm, hres⟩ := hd
      obtain rfl : n = m := Option.some.inj (hn.symm.trans hm)
      have hold : n.entries id = [] := by
        obtain ⟨t', hts, hid'⟩ := isResidueOf_single hres
        exact Node.entries_single hts fun hid => hne (hid.symm.trans hid')
      rw [hold]
      exact Or.inl (Node.entries_nil rfl)
  case merged b t duty occ left =>
      obtain ⟨m, v, hm, hnil, -⟩ := hd.target
      obtain rfl : n = m := Option.some.inj (hn.symm.trans hm)
      rw [Node.entries_nil hnil]
      refine Or.inl (Node.entries_single (t := t) (by simp [hnil]) ?_)
      rw [hd.id_eq]
      exact hne.symm
  case share b t duty occ left =>
      refine Or.inr (Or.inr ⟨t, duty, occ, left, rfl, ?_, rfl⟩)
      rw [hd.new_eq]
      exact hne.symm

/-- A model that is not being scheduled keeps its number of entries on every
node. -/
theorem count_other (hd : Detail s c act) (hne : act.isTask = true → id ≠ c.task.id) :
    (act.apply s.useRepartition c).sim.total (Node.count id) = c.sim.total (Node.count id) := by
  rcases total_apply (F := Node.count id) (Node.sumOf_nil _ id) hd with
    ⟨a, f, n, hw, hn, htotal⟩ | ⟨-, htotal⟩
  · have htask : act.isTask = true := by cases act <;> first | rfl | cases hw
    rw [htotal]
    suffices hcount : (f n).count id = n.count id by
      rw [hcount]
      ring
    rcases hd.entries_other hw hn (hne htask) with hsame | ⟨n', -, rfl, hadj⟩ |
      ⟨t, duty, occ, left, -, hid, htasks⟩
    · rw [Node.count, Node.sumOf, hsame]
      rfl
    · rw [Node.count_eq, Node.count_eq, hadj.ids_eq]
    · rw [Node.count_eq, Node.count_eq, htasks, List.map_append, List.map_map, List.count_append]
      have hzero : List.count id ([t].map (·.id)) = 0 :=
        List.count_eq_zero.mpr (by simpa using hid.symm)
      rw [hzero]
      rfl
  · exact htotal

/-! ## Keeping throughput -/

/-- Of two versions of a list of entries, the second lowers the throughput of
no watched model. -/
def keepsThroughput (watched : Int → Bool) (ts ts' : List Task) : Bool :=
  (ts.zip ts').all fun p => !watched p.1.id || decide (p.1.throughput ≤ p.2.throughput)

/-- Does an action leave the entries of the watched models at their throughput
or above it? Time sharing re-times all entries of a node for a new duty cycle,
and the interference adjustments rewrite them. -/
def keepsOthers (watched : Int → Bool) (c : Core) : Action → Bool
  | .share a _ duty _ _ => match c.sim.node? a with
      | some n => keepsThroughput watched n.vTaskList (n.vTaskList.map (retime duty))
      | none => true
  | .adjust a n' => match c.sim.node? a with
      | some n => keepsThroughput watched n.vTaskList n'.vTaskList
      | none => true
  | _ => true

section Ordered

variable {M : Type} [AddCommGroup M] [PartialOrder M] [IsOrderedAddMonoid M] {g : Task → M}
  {watched : Int → Bool}

/-- Nothing watched is lowered, so no monotone sum over it is. -/
theorem sum_entries_le (hg : ∀ t t', t.throughput ≤ t'.throughput → g t ≤ g t')
    {ts ts' : List Task} (hids : ts'.map (·.id) = ts.map (·.id))
    (hkeep : keepsThroughput watched ts ts' = true) (hid : watched id = true) :
    ((ts.filter fun t => t.id == id).map g).sum ≤ ((ts'.filter fun t => t.id == id).map g).sum := by
  induction ts generalizing ts' with
  | nil =>
      obtain rfl : ts' = [] := List.map_eq_nil_iff.mp hids
      exact le_rfl
  | cons t ts ih =>
      cases ts' with
      | nil => cases hids
      | cons t' ts' =>
          simp only [List.map_cons, List.cons.injEq] at hids
          simp only [keepsThroughput, List.zip_cons_cons, List.all_cons, Bool.and_eq_true,
            Bool.or_eq_true, Bool.not_eq_true', decide_eq_true_eq] at hkeep
          have hrest := ih hids.2 hkeep.2
          by_cases h : t.id = id
          · have hle : t.throughput ≤ t'.throughput := by
              refine hkeep.1.resolve_left ?_
              rw [h, hid]
              exact Bool.noConfusion
            simp only [List.filter_cons, beq_iff_eq, h, hids.1, if_true, List.map_cons,
              List.sum_cons]
            exact add_le_add (hg t t' hle) hrest
          · simp only [List.filter_cons, beq_iff_eq, h, hids.1, if_false]
            exact hrest

/-- **Bystanders.** A watched model that is not being scheduled keeps its sum. -/
theorem sumOf_other_le (hg : ∀ t t', t.throughput ≤ t'.throughput → g t ≤ g t')
    (hd : Detail s c act) (hne : act.isTask = true → id ≠ c.task.id)
    (hkeep : keepsOthers watched c act = true) (hid : watched id = true) :
    c.sim.total (Node.sumOf g id) ≤
      (act.apply s.useRepartition c).sim.total (Node.sumOf g id) := by
  rcases total_apply (F := Node.sumOf g id) (Node.sumOf_nil g id) hd with
    ⟨a, f, n, hw, hn, htotal⟩ | ⟨-, htotal⟩
  · have htask : act.isTask = true := by cases act <;> first | rfl | cases hw
    rw [htotal]
    suffices hle : n.sumOf g id ≤ (f n).sumOf g id from
      le_add_of_nonneg_right (sub_nonneg.mpr hle)
    rcases hd.entries_other hw hn (hne htask) with hsame | ⟨n', rfl, rfl, hadj⟩ |
      ⟨t, duty, occ, left, rfl, hother, htasks⟩
    · rw [Node.sumOf, Node.sumOf, hsame]
    · simp only [keepsOthers, hn] at hkeep
      exact sum_entries_le hg hadj.ids_eq hkeep hid
    · simp only [keepsOthers, hn] at hkeep
      have hids : (n.vTaskList.map (retime duty)).map (·.id) = n.vTaskList.map (·.id) := by
        rw [List.map_map]
        rfl
      have hnew : [t].filter (fun t => t.id == id) = [] :=
        entries_of_other fun u hu => by rwa [List.mem_singleton.mp hu]
      rw [Node.sumOf, Node.sumOf, Node.entries, Node.entries, htasks, List.filter_append, hnew,
        List.append_nil]
      exact sum_entries_le hg hids hkeep hid
  · exact le_of_eq htotal.symm

/-- The same for a whole run; which models are watched may depend on the state. -/
theorem sumOf_le_of_moves (watched : Core → Int → Bool) {G : Core → Action → Prop}
    {r r' : Rec Core Action} {ids : List Int}
    (hg : ∀ t t', t.throughput ≤ t'.throughput → g t ≤ g t')
    (h : Moves (Action.apply s.useRepartition) G r r')
    (hG : ∀ c act, G c act → Guard s ids c act ∧ watched c id = true)
    (hkeep : ∀ p ∈ r'.log, keepsOthers (watched p.1) p.1 p.2 = true) (hout : id ∉ ids) :
    r.cur.sim.total (Node.sumOf g id) ≤ r'.cur.sim.total (Node.sumOf g id) := by
  refine Moves.invariant
    (I := fun c => r.cur.sim.total (Node.sumOf g id) ≤ c.sim.total (Node.sumOf g id))
    (C := fun c act => keepsOthers (watched c) c act = true) ?_ h hkeep le_rfl
  intro c act hle hact hkeep
  obtain ⟨⟨hd, hmem, -⟩, hid⟩ := hG c act hact
  refine le_trans hle (sumOf_other_le hg hd (fun ht heq => hout ?_) hkeep hid)
  rw [heq]
  exact hmem ht

theorem Runs.sumOf_le {K : Action → Prop} {r r' : Rec Core Action} {ids : List Int}
    (h : Runs s ids K r r') (hg : ∀ t t', t.throughput ≤ t'.throughput → g t ≤ g t')
    (hkeep : ∀ p ∈ r'.log, keepsOthers watched p.1 p.2 = true) (hid : watched id = true)
    (hout : id ∉ ids) :
    r.cur.sim.total (Node.sumOf g id) ≤ r'.cur.sim.total (Node.sumOf g id) :=
  sumOf_le_of_moves (fun _ => watched) hg h (fun _ _ hact => ⟨hact.1, hid⟩) hkeep hout

end Ordered

/-- A model that is not scheduled in a run stays hosted, or not hosted. -/
theorem Runs.count_eq {K : Action → Prop} {r r' : Rec Core Action} {ids : List Int}
    (h : Runs s ids K r r') (hout : id ∉ ids) :
    r'.cur.sim.total (Node.count id) = r.cur.sim.total (Node.count id) := by
  refine Moves.keeps (f := fun c => c.sim.total (Node.count id)) ?_ h
  rintro c act ⟨⟨hd, hmem, -⟩, -⟩
  refine count_other hd fun ht heq => hout ?_
  rw [heq]
  exact hmem ht

/-! ## Copies -/

theorem total_copy {M : Type} [AddCommGroup M] {F : Node → M} {sim : SimState}
    (hF : ∀ rate n, F (SimState.copyNode rate n) = F n) : (copyToOutput s sim).2.total F = sim.total F := by
  rw [SimState.total_eq_nodes, SimState.total_eq_nodes, SimState.nodes_copy, List.map_map]
  exact congrArg List.sum (List.map_congr_left fun n _ => hF _ n)

/-- Sums that do not read `additional_rate` survive a copy. -/
theorem Node.sumOf_copy {M : Type} [AddCommGroup M] {g : Task → M}
    (hg : ∀ (t : Task) (rate : Int), g { t with additionalRate := rate } = g t) (id rate : Int)
    (n : Node) :
    (SimState.copyNode rate n).sumOf g id = n.sumOf g id := by
  have hfilter : (SimState.copyNode rate n).entries id =
      (n.entries id).map fun t => { t with additionalRate := rate } := by
    rw [entries, SimState.copyNode, List.filter_map]
    rfl
  rw [sumOf, sumOf, hfilter, List.map_map]
  exact congrArg List.sum (List.map_congr_left fun t _ => hg t rate)

end Glet
