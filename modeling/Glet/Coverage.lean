import Glet.Entries
import Glet.Partition

/-!
# Rate coverage

How the request rate of a task is accounted for while it is being scheduled
(interference off). An entry covers one unit more than its truncated
throughput (`weight`): that much is what taking its throughput off the
request rate can lose. `Covers` is the invariant, phase by phase:

- while the rate is placed, what is left of it and what the entries cover,
  the gpu-let not taken off yet aside, make up the rate asked for;
- while `mergeResidue` moves residue gpu-lets, the rate it collected, one
  unit for each of them and what the other entries cover do;
- when the task is done, at most TRP_SLACK is missing.

The last step loses more if `mergeResidue` collects more than 16 truncated
throughputs, and everything if it finds no node for them.
-/

namespace Glet

open Recorder Scheduler

/-! ## What entries cover -/

/-- What an entry covers of a request rate. -/
def weight (t : Task) : Int := ⌊t.throughput⌋ + 1

theorem weight_mono (t t' : Task) (h : t.throughput ≤ t'.throughput) : weight t ≤ weight t' := by
  have := Int.floor_le_floor h
  simp only [weight]
  omega

/-- What the entries of a model on a node cover. -/
def cover (id : Int) (n : Node) : Int := n.sumOf weight id

theorem cover_nil {id : Int} (n : Node) (h : n.vTaskList = []) : cover id n = 0 :=
  Node.sumOf_nil weight id n h

/-- The same, except on the residue nodes of the model. -/
def restCover (id : Int) (n : Node) : Int := if isResidueOf id n then 0 else cover id n

theorem restCover_nil {id : Int} (n : Node) (h : n.vTaskList = []) : restCover id n = 0 := by
  rw [restCover, cover_nil n h]
  split <;> rfl

/-- A residue node covers its truncated throughput and one unit. -/
theorem cover_split (id : Int) (n : Node) :
    cover id n = restCover id n + (residueRate id n + residueCount id n) := by
  by_cases h : isResidueOf id n = true
  · obtain ⟨t, hts, hid⟩ := isResidueOf_single h
    simp only [restCover, residueRate, residueCount, h, if_true, zero_add]
    rw [cover, Node.sumOf_single weight hts hid, hts]
    simp [weight]
  · simp [restCover, residueRate, residueCount, h]

theorem SimState.total_add {M : Type} [AddCommGroup M] (sim : SimState) (F G : Node → M) :
    sim.total (fun n => F n + G n) = sim.total F + sim.total G := by
  rw [total_eq_nodes, total_eq_nodes, total_eq_nodes, List.sum_map_add]

theorem total_cover_split (id : Int) (sim : SimState) :
    sim.total (cover id) = sim.total (restCover id) +
      (sim.total (residueRate id) + sim.total (residueCount id)) := by
  rw [← SimState.total_add, ← SimState.total_add]
  exact congrArg (fun F => SimState.total F sim) (funext (cover_split id))

/-! ## The invariant -/

/-- What the gpu-let covers that is not taken off the request rate yet. -/
def pendingCover (c : Core) : Int :=
  match c.pending with
  | some a => c.sim.valueAt (cover c.task.id) a
  | none => 0

/-- The rate `R` of the current task is accounted for; `many` stands for a
merge of more than 16 residue gpu-lets. -/
def Covers (R : Int) (many : Prop) (c : Core) : Prop :=
  match c.phase with
  | .placing => R ≤ c.task.requestRate + c.sim.total (cover c.task.id) - pendingCover c ∧
      c.task.additionalRate = 0
  | .moving rate count => R ≤ rate + count + c.sim.total (restCover c.task.id) ∧
      (16 < count → many)
  | .done => R ≤ trpSlack + c.sim.total (cover c.task.id) ∨ (many ∧ hosted c.task.id c.sim)

variable {s : Scheduler} {c c' : Core} {act : Action} {R : Int} {many : Prop}

/-- The invariant reads the task, the phase and sums over nodes. -/
theorem Covers.of_same (h : Covers R many c) (htask : c'.task = c.task)
    (hphase : c'.phase = c.phase) (hpending : pendingCover c' = pendingCover c)
    (hcover : c'.sim.total (cover c.task.id) = c.sim.total (cover c.task.id))
    (hrest : c'.sim.total (restCover c.task.id) = c.sim.total (restCover c.task.id))
    (hcount : c'.sim.total (Node.count c.task.id) = c.sim.total (Node.count c.task.id)) :
    Covers R many c' := by
  unfold Covers at h ⊢
  rw [hosted_iff] at h ⊢
  rw [htask, hphase, hpending, hcover, hrest, hcount]
  exact h

/-- Actions that rewrite no node and leave task, phase and pending gpu-let. -/
theorem Covers.of_quiet (h : Covers R many c) (hd : Detail s c act)
    (hw : act.writes s.useRepartition c = none)
    (htask : (act.apply s.useRepartition c).task = c.task)
    (hphase : (act.apply s.useRepartition c).phase = c.phase)
    (hpending : (act.apply s.useRepartition c).pending = c.pending) :
    Covers R many (act.apply s.useRepartition c) := by
  have htotal : ∀ F : Node → Int, (∀ n, n.vTaskList = [] → F n = 0) →
      (act.apply s.useRepartition c).sim.total F = c.sim.total F := by
    intro F hF
    rcases total_apply hF hd with ⟨a, f, n, hw', -⟩ | ⟨-, htotal⟩
    · rw [hw] at hw'
      cases hw'
    · exact htotal
  refine h.of_same htask hphase ?_ (htotal _ cover_nil) (htotal _ restCover_nil)
    (htotal _ (Node.sumOf_nil _ _))
  unfold pendingCover
  rw [hpending, htask]
  cases c.pending with
  | none => rfl
  | some a => exact valueAt_apply cover_nil hd hw a

/-- Duty cycle and occupancy of an empty node. -/
theorem Covers.prime {a : Addr} {duty occ : ℚ} (h : Covers R many c)
    (hd : Detail s c (.prime a duty occ)) :
    Covers R many ((Action.prime a duty occ).apply s.useRepartition c) := by
  obtain ⟨n, hn, hnil⟩ := hd
  have htotal : ∀ F : Node → Int, (∀ n, n.vTaskList = [] → F n = 0) →
      ((Action.prime a duty occ).apply s.useRepartition c).sim.total F = c.sim.total F := by
    intro F hF
    have hnew := hF { n with dutyCycle := some duty, occupancy := occ } hnil
    rw [SimState.total_writes s.useRepartition (.prime a duty occ) rfl hn, hF n hnil, hnew]
    ring
  refine h.of_same (by simp [Action.apply]) (by simp [Action.apply]) ?_ (htotal _ cover_nil)
    (htotal _ restCover_nil) (htotal _ (Node.sumOf_nil _ _))
  unfold pendingCover
  simp only [Action.apply, Core.write_pending, Core.write_task]
  cases c.pending with
  | none => rfl
  | some b =>
      have hvalue := valueAt_writes s.useRepartition (.prime a duty occ)
        (F := cover c.task.id) (b := b) rfl hn
      refine hvalue.trans ?_
      dsimp only
      split
      case isTrue heq =>
        rw [heq, SimState.valueAt_node hn, cover_nil n hnil]
        exact cover_nil _ hnil
      case isFalse => rfl

/-! ## Placing -/

section Placing

variable {a : Addr} {n : Node} {f : Node → Node} (hplacing : c.phase = .placing)
include hplacing

theorem covers_placing : Covers R many c ↔
    R ≤ c.task.requestRate + c.sim.total (cover c.task.id) - pendingCover c ∧
      c.task.additionalRate = 0 := by
  unfold Covers
  rw [hplacing]

/-- A gpu-let with one entry of the task goes on an empty node. -/
theorem Covers.place {e : Task} (h : Covers R many c) (hsettled : c.pending = none)
    (hw : act.writes s.useRepartition c = some (a, f)) (hn : c.sim.node? a = some n)
    (hnil : n.vTaskList = []) (htasks : (f n).vTaskList = [e]) (hid : e.id = c.task.id)
    (hkeep : (act.apply s.useRepartition c).task = c.task ∧
      (act.apply s.useRepartition c).phase = c.phase ∧
      (act.apply s.useRepartition c).pending = some a) :
    Covers R many (act.apply s.useRepartition c) := by
  obtain ⟨htask, hphase, hpending⟩ := hkeep
  rw [covers_placing hplacing] at h
  rw [covers_placing (hphase.trans hplacing), htask]
  have hcover : cover c.task.id (f n) = weight e := Node.sumOf_single weight htasks hid
  have htotal := SimState.total_writes (F := cover c.task.id) _ _ hw hn
  have hnew : pendingCover (act.apply s.useRepartition c) = weight e := by
    unfold pendingCover
    rw [hpending, htask]
    dsimp only
    rw [valueAt_writes _ _ hw hn, if_pos rfl, hcover]
  have hold : pendingCover c = 0 := by
    unfold pendingCover
    rw [hsettled]
  rw [cover_nil n hnil, hcover] at htotal
  omega

theorem Covers.accept {rate : Int} (hi : s.useInterference = false) (h : Covers R many c)
    (hd : Detail s c (.accept a rate)) :
    Covers R many ((Action.accept a rate).apply s.useRepartition c) := by
  obtain ⟨hpending, -, n, e, hn, htasks, hid, hrate⟩ := hd
  rw [covers_placing hplacing] at h
  rw [covers_placing (c := (Action.accept a rate).apply s.useRepartition c) hplacing]
  have hold : pendingCover c = weight e := by
    unfold pendingCover
    rw [hpending]
    dsimp only
    rw [SimState.valueAt_node hn]
    exact Node.sumOf_single weight htasks hid
  have hcovers := hrate hi
  have hnew : pendingCover ((Action.accept a rate).apply s.useRepartition c) = 0 := rfl
  refine ⟨?_, h.2⟩
  rw [hnew]
  simp only [Action.apply, Core.setRate]
  simp only [weight] at hold
  omega

theorem Covers.revert (h : Covers R many c) (hd : Detail s c (.revert a)) :
    Covers R many ((Action.revert a).apply s.useRepartition c) := by
  obtain ⟨hpending, -, -, n, hn, hids⟩ := hd
  rw [covers_placing hplacing] at h
  have hphase : ((Action.revert a).apply s.useRepartition c).phase = .placing := by
    simpa [Action.apply] using hplacing
  have htask : ((Action.revert a).apply s.useRepartition c).task = c.task := by
    simp [Action.apply]
  rw [covers_placing hphase, htask]
  have hold : pendingCover c = cover c.task.id n := by
    unfold pendingCover
    rw [hpending]
    exact SimState.valueAt_node hn
  have hnew : pendingCover ((Action.revert a).apply s.useRepartition c) = 0 := rfl
  have htotal := SimState.total_writes s.useRepartition (.revert a)
    (F := cover c.task.id) rfl hn
  rw [cover_nil _ rfl] at htotal
  rw [hnew]
  omega

theorem Covers.gather {rate : Int} {count : Nat} (h : Covers R many c)
    (hd : Detail s c (.gather rate count)) (hmany : 16 < count → many) :
    Covers R many ((Action.gather rate count).apply s.useRepartition c) := by
  obtain ⟨-, hsettled, hrate, hcount⟩ := hd
  rw [covers_placing hplacing] at h
  have hold : pendingCover c = 0 := by
    unfold pendingCover
    rw [hsettled]
  have hsplit := total_cover_split c.task.id c.sim
  refine ⟨?_, hmany⟩
  change R ≤ rate + count + c.sim.total (restCover c.task.id)
  omega

theorem Covers.finish (h : Covers R many c) (hd : Detail s c .finish) :
    Covers R many (Action.finish.apply s.useRepartition c) := by
  obtain ⟨-, hsettled, hle⟩ := hd
  rw [covers_placing hplacing] at h
  have hold : pendingCover c = 0 := by
    unfold pendingCover
    rw [hsettled]
  refine Or.inl ?_
  change R ≤ trpSlack + c.sim.total (cover c.task.id)
  omega

end Placing

/-! ## Moving residues -/

/-- `mergeResidue` clears a residue node: the other entries stay. -/
theorem Covers.wipe {a : Addr} {used : Int} (h : Covers R many c)
    (hd : Detail s c (.wipe a used)) :
    Covers R many ((Action.wipe a used).apply s.useRepartition c) := by
  obtain ⟨⟨rate, count, hmoving⟩, n, hn, hres⟩ := hd
  have htotal := SimState.total_writes s.useRepartition (.wipe a used)
    (F := restCover c.task.id) rfl hn
  have hnode : restCover c.task.id n = 0 := by rw [restCover, if_pos hres]
  rw [restCover_nil _ rfl, hnode, sub_zero, add_zero] at htotal
  have hphase : ((Action.wipe a used).apply s.useRepartition c).phase = .moving rate count := by
    simpa [Action.apply] using hmoving
  have htask : ((Action.wipe a used).apply s.useRepartition c).task = c.task := by
    simp [Action.apply]
  unfold Covers at h ⊢
  rw [hmoving] at h
  rw [hphase]
  dsimp only at h ⊢
  rw [htask, htotal]
  exact h

/-- `mergeResidue` places what it collected. -/
theorem Covers.merged {a : Addr} {t : Task} {duty occ : ℚ} {left : Int} (h : Covers R many c)
    (hd : Detail s c (.merged a t duty occ left)) :
    Covers R many ((Action.merged a t duty occ left).apply s.useRepartition c) := by
  obtain ⟨rate, count, hmoving, hrate⟩ := hd.collected
  obtain ⟨n, v, hn, hnil, -⟩ := hd.target
  have htask : ((Action.merged a t duty occ left).apply s.useRepartition c).task.id =
      c.task.id := by
    simp [Action.apply, Core.setRate]
  have hphase : ((Action.merged a t duty occ left).apply s.useRepartition c).phase = .done := rfl
  unfold Covers at h ⊢
  rw [hmoving] at h
  rw [hphase]
  dsimp only at h ⊢
  rw [htask]
  have hrest : c.sim.total (restCover c.task.id) = c.sim.total (cover c.task.id) := by
    rw [SimState.total_eq_nodes, SimState.total_eq_nodes]
    refine congrArg List.sum (List.map_congr_left fun m hm => ?_)
    obtain ⟨b, hb⟩ := SimState.mem_nodes.mp hm
    rw [restCover, hd.wiped b m hb]
    rfl
  have htotal := SimState.total_writes s.useRepartition (.merged a t duty occ left) (F := cover c.task.id) rfl hn
  have hcount := SimState.total_writes s.useRepartition (.merged a t duty occ left) (F := Node.count c.task.id) rfl hn
  rw [cover_nil n hnil, cover, Node.sumOf_single (t := t) weight (by simp [hnil]) hd.id_eq] at htotal
  rw [show n.count c.task.id = 0 from Node.sumOf_nil _ _ n hnil, Node.count,
    Node.sumOf_single (t := t) _ (by simp [hnil]) hd.id_eq] at hcount
  have hweight : weight t = t.requestRate + 1 := by
    rw [weight, hd.throughput_eq, Int.floor_intCast]
  by_cases h16 : 16 < count
  · refine Or.inr ⟨h.2 h16, hosted_iff.mpr ?_⟩
    have hnonneg : 0 ≤ c.sim.total (Node.count c.task.id) := by
      rw [SimState.total_eq_nodes]
      refine List.sum_nonneg fun x hx => ?_
      obtain ⟨m, -, rfl⟩ := List.mem_map.mp hx
      exact Node.count_nonneg _ m
    omega
  · refine Or.inl ?_
    simp only [trpSlack]
    omega

/-! ## Time sharing -/

theorem ShareGuard.new_id {a : Addr} {t : Task} {duty left : Int}
    (h : ShareGuard s c a t duty left) : t.id = c.task.id := by
  rw [h.new_eq]
  rfl

theorem ShareGuard.throughput_nonneg {a : Addr} {t : Task} {duty left : Int}
    (h : ShareGuard s c a t duty left) : 0 ≤ t.throughput := by
  have hb : (0 : ℚ) ≤ t.batchSize := by exact_mod_cast le_trans zero_le_one h.batch_pos
  have hd : (0 : ℚ) ≤ duty := by exact_mod_cast le_trans zero_le_one h.duty_pos
  rw [h.new_eq]
  simp only [createNewTask]
  positivity

/-- The task gets one entry on a node where it had none. -/
theorem ShareGuard.sumOf_node {M : Type} [AddCommGroup M] (g : Task → M) (occ : ℚ) {a : Addr}
    {t : Task} {duty left : Int} {n : Node} (hd : ShareGuard s c a t duty left)
    (hn : c.sim.node? a = some n) :
    n.sumOf g c.task.id = 0 ∧ Node.sumOf g c.task.id { n with
      vTaskList := n.vTaskList.map (retime duty) ++ [t]
      dutyCycle := some (duty : ℚ), occupancy := occ } = g t := by
  obtain ⟨m, _, _, hm, hshares⟩ := hd.target
  obtain rfl : n = m := Option.some.inj (hn.symm.trans hm)
  have habsent : ∀ u ∈ n.vTaskList, u.id ≠ c.task.id := by
    have := hshares.absent
    simpa [checkContain] using this
  have hold : n.entries c.task.id = [] := entries_of_other habsent
  have hmoved : (n.vTaskList.map (retime duty)).filter (fun u => u.id == c.task.id) = [] := by
    refine entries_of_other fun u hu => ?_
    obtain ⟨u0, hu0, rfl⟩ := List.mem_map.mp hu
    exact habsent u0 hu0
  constructor
  · rw [Node.sumOf, hold]
    rfl
  · rw [Node.sumOf, Node.entries, List.filter_append, hmoved]
    simp [hd.new_id]

theorem ShareGuard.total_sumOf {M : Type} [AddCommGroup M] (g : Task → M) (occ : ℚ) {a : Addr}
    {t : Task} {duty left : Int} (hd : ShareGuard s c a t duty left) :
    ((Action.share a t duty occ left).apply s.useRepartition c).sim.total
      (Node.sumOf g c.task.id) = c.sim.total (Node.sumOf g c.task.id) + g t := by
  obtain ⟨n, _, _, hn, -⟩ := hd.target
  obtain ⟨hold, hnew⟩ := hd.sumOf_node g occ hn
  rw [SimState.total_writes s.useRepartition (.share a t duty occ left) rfl hn, hold, hnew, sub_zero]

theorem Covers.share {a : Addr} {t : Task} {duty : Int} {occ : ℚ} {left : Int}
    (h : Covers R many c) (hd : ShareGuard s c a t duty left) :
    Covers R many ((Action.share a t duty occ left).apply s.useRepartition c) := by
  have htask : ((Action.share a t duty occ left).apply s.useRepartition c).task =
      { c.task with requestRate := left } := by
    simp [Action.apply, Core.setRate]
  have hphase : ((Action.share a t duty occ left).apply s.useRepartition c).phase = c.phase := by
    simp [Action.apply, Core.setRate]
  have hpending : ((Action.share a t duty occ left).apply s.useRepartition c).pending = none := by
    simpa [Action.apply, Core.setRate] using hd.settled
  have hcover := hd.total_sumOf weight occ
  have hcount := hd.total_sumOf (fun _ => (1 : Int)) occ
  have hpos : 0 ≤ weight t := by
    have := Int.floor_nonneg.mpr hd.throughput_nonneg
    simp only [weight]
    omega
  unfold Covers at h ⊢
  rw [hphase]
  cases hp : c.phase with
  | placing =>
      rw [hp] at h
      dsimp only at h ⊢
      have hold : pendingCover c = 0 := by
        unfold pendingCover
        rw [hd.settled]
      have hnew : pendingCover ((Action.share a t duty occ left).apply s.useRepartition c) = 0 := by
        unfold pendingCover
        rw [hpending]
      have hcovers := hd.covers
      rw [hnew, htask]
      refine ⟨?_, h.2⟩
      change R ≤ left + _ - 0
      change SimState.total (cover c.task.id) _ = c.sim.total (cover c.task.id) + _ at hcover
      simp only [weight] at hcover
      rw [hcover]
      omega
  | moving rate count =>
      rw [hp] at h
      dsimp only at h ⊢
      rw [htask]
      refine ⟨le_trans h.1 ?_, h.2⟩
      obtain ⟨n, _, _, hn, -⟩ := hd.target
      obtain ⟨hold, hnew⟩ := hd.sumOf_node weight occ hn
      have hzero : restCover c.task.id n = 0 := by
        rw [restCover, cover, hold]
        split <;> rfl
      have htotal := SimState.total_writes s.useRepartition (.share a t duty occ left) (F := restCover c.task.id) rfl hn
      have hnonneg : 0 ≤ restCover c.task.id { n with
          vTaskList := n.vTaskList.map (retime duty) ++ [t]
          dutyCycle := some (duty : ℚ), occupancy := occ } := by
        rw [restCover, cover, hnew]
        split
        · exact le_rfl
        · exact hpos
      change rate + count + _ ≤ rate + count + SimState.total (restCover c.task.id) _
      rw [htotal, hzero]
      omega
  | done =>
      rw [hp] at h
      dsimp only at h ⊢
      rw [htask]
      rcases h with h | ⟨hmany, hhost⟩
      · refine Or.inl (le_trans h ?_)
        change SimState.total (cover c.task.id) _ = c.sim.total (cover c.task.id) + _ at hcover
        change trpSlack + _ ≤ trpSlack + SimState.total (cover c.task.id) _
        omega
      · refine Or.inr ⟨hmany, hosted_iff.mpr ?_⟩
        have hpos := hosted_iff.mp hhost
        change SimState.total (Node.count c.task.id) _ = c.sim.total (Node.count c.task.id) + _
          at hcount
        change 0 < SimState.total (Node.count c.task.id) _
        omega

/-! ## One task -/

/-- **Step.** With interference off, every action on the task keeps the
account, unless `mergeResidue` finds no node for what it cleared. -/
theorem Covers.apply {ids : List Int} (hi : s.useInterference = false) (hg : Guard s ids c act)
    (hk : Plan act) (hplaced : act ≠ .unplaced)
    (hmany : ∀ rate count, act = .gather rate count → 16 < count → many)
    (h : Covers R many c) : Covers R many (act.apply s.useRepartition c) := by
  obtain ⟨hd, -, hphase⟩ := hg
  have hoff : ¬ s.useInterference = true := by simp [hi]
  cases act <;> try cases hk
  case split a part =>
      refine h.of_quiet hd rfl ?_ ?_ ?_ <;>
      · simp only [Action.apply]
        split <;> rfl
  case fit a org checked =>
      obtain ⟨n, gpu, e, d, v, hn, hnil, -, -, hlet, -⟩ := hd.target
      exact h.place (hphase rfl) hd.settled rfl hn hnil hlet.tasks hlet.id_eq
        ⟨by simp [Action.apply], by simp [Action.apply], rfl⟩
  case prime a duty occ =>
      exact h.prime hd
  case place a kind t duty occ =>
      obtain ⟨n, k, v, hn, hnil, -⟩ := hd.target
      exact h.place (e := t) (hphase rfl) hd.settled rfl hn hnil (by simp [hnil]) hd.id_eq
        ⟨by simp [Action.apply], by simp [Action.apply], rfl⟩
  case bandwidthOK => exact h.of_quiet hd rfl rfl rfl rfl
  case revert => exact h.revert (hphase rfl) hd
  case accept => exact h.accept (hphase rfl) hi hd
  case absorb => exact absurd hd hoff
  case rerate rate =>
      have hplacing := hphase rfl
      rw [covers_placing hplacing] at h
      rw [covers_placing (c := (Action.rerate rate).apply s.useRepartition c) hplacing]
      refine ⟨?_, h.2⟩
      have hle : c.task.requestRate ≤ rate := hd
      change R ≤ rate + c.sim.total (cover c.task.id) - pendingCover c
      omega
  case addRate => exact absurd hd hoff
  case adjust => exact absurd hd.1 hoff
  case gather rate count => exact h.gather hd.1 hd (hmany rate count rfl)
  case wipe => exact h.wipe hd
  case merged => exact h.merged hd
  case unplaced => exact absurd rfl hplaced
  case unify => exact h.of_quiet hd rfl rfl rfl rfl
  case share => exact h.share hd
  case charge => exact h.of_quiet hd rfl rfl rfl rfl
  case skipCharge => exact h.of_quiet hd rfl rfl rfl rfl
  case finish => exact h.finish hd.1 hd
  case leave => exact absurd hd.1 hoff

end Glet
