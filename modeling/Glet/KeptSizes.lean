import Glet.FrontendRuns
import Glet.Performs

/-!
# Runs without repartitioning

Without `allow_repart` a call of `runScheduling` splits no GPU, merges no empty
nodes and resizes no node: `readjust` and `allocateFit` ask for `_useRepartition`
before they split, `mergeResidue` before it merges, and `copyToNode` leaves the
partition size. Whatever the call does otherwise, the GPUs keep their nodes
(`runScheduling_sizes`).
-/

namespace Glet

open Recorder

/-- The actions that change which nodes a GPU has. -/
def Action.resizes : Action → Bool
  | .split .. | .unify _ => true
  | _ => false

/-! ## Programs that do not resize -/

/-- The program resizes no node. -/
abbrev Sizeless {β : Type} (p : Sched β) : Prop :=
  Prog.Performs (fun act : Action => act.resizes = false) p

namespace Scheduler

section Programs

variable {s : Scheduler} {β γ : Type} {a : Addr} {task : Task} {table : SatTable}

instance getSim_sizeless : Sizeless getSim := Prog.Performs.ask

instance getTask_sizeless : Sizeless getTask := Prog.Performs.ask

instance query_sizeless {q : Query β} : Sizeless (query q) := Prog.Performs.ask

instance getNode_sizeless : Sizeless (getNode a) := Prog.Performs.ask

instance getGPU_sizeless {i : Nat} : Sizeless (getGPU i) := Prog.Performs.ask

theorem act_sizeless {act : Action} (h : act.resizes = false) : Sizeless (s.act act) :=
  Prog.Performs.act _ h

theorem act_bind_sizeless {act : Action} {f : Unit → Sched γ} (h : act.resizes = false)
    (hf : ∀ u, Sizeless (f u)) : Sizeless (s.act act >>= f) :=
  have := act_sizeless (s := s) h
  .bind hf

instance addGPUMemUsage_sizeless : Sizeless (s.addGPUMemUsage a) := by
  unfold addGPUMemUsage
  split
  · refine .bind fun _ => .bind fun _ => .bind fun _ => .bind fun _ => ?_
    split
    · exact act_sizeless rfl
    · exact act_sizeless rfl
  · infer_instance

instance adjustFitNodes_sizeless {as : List Addr} : Sizeless (s.adjustFitNodes as) := by
  induction as with
  | nil => exact .pure _
  | cons a as ih =>
      unfold adjustFitNodes
      refine .bind fun _ => .bind fun _ => ?_
      split
      · refine .bind fun _ => ?_
        split
        · infer_instance
        · exact act_bind_sizeless rfl fun _ => act_bind_sizeless rfl fun _ => ih
      · refine .bind fun _ => ?_
        split
        · exact ih
        · exact act_bind_sizeless rfl fun _ => ih

instance adjustFit_sizeless : Sizeless (s.adjustFit a) := by
  unfold adjustFit
  infer_instance

instance adjustOtherNodes_sizeless {new : Node} {as : List Addr} {revert : Bool} :
    Sizeless (s.adjustOtherNodes new as revert) := by
  induction as generalizing revert with
  | nil => exact .pure _
  | cons a as ih =>
      unfold adjustOtherNodes
      refine .bind fun _ => .bind fun _ => ?_
      split
      · exact ih
      · split
        · refine .bind fun _ => ?_
          split
          · infer_instance
          · exact act_bind_sizeless rfl fun _ => ih
        · refine .bind fun _ => ?_
          split
          · exact ih
          · exact act_bind_sizeless rfl fun _ => ih

instance checkNeedtoRevert_sizeless : Sizeless (s.checkNeedtoRevert a) := by
  have hband : Sizeless (s.act (.bandwidthOK a)) := act_sizeless rfl
  have habsorb : Sizeless (s.act .absorb) := act_sizeless rfl
  unfold checkNeedtoRevert
  infer_instance

instance settle_sizeless {remaining : Int → ℚ → Int} : Sizeless (s.settle a task remaining) := by
  have hrevert : Sizeless (s.act (.revert a)) := act_sizeless rfl
  unfold settle
  refine .bind fun _ => ?_
  split
  · infer_instance
  · exact .bind fun _ => .bind fun _ => act_sizeless rfl

instance placeSaturated_sizeless {batch : Int} {latency trp : ℚ} :
    Sizeless (s.placeSaturated a batch latency trp) := by
  unfold placeSaturated
  refine .bind fun _ => .bind fun _ => .bind fun _ => .bind fun _ => ?_
  split
  · infer_instance
  · refine .bind fun _ => ?_
    split
    · exact act_bind_sizeless rfl fun _ => inferInstance
    · infer_instance

instance placeResidue_sizeless : Sizeless (s.placeResidue a) := by
  unfold placeResidue
  refine .bind fun _ => .bind fun _ => .bind fun _ => .bind fun _ => ?_
  dsimp only
  refine act_bind_sizeless rfl fun _ => ?_
  split
  · infer_instance
  · refine .bind fun _ => act_bind_sizeless rfl fun _ => .bind fun _ => .bind fun _ => ?_
    refine .bind fun _ => ?_
    split
    · infer_instance
    · refine .bind fun _ => .bind fun _ => act_bind_sizeless rfl fun _ => .bind fun _ => ?_
      split
      · exact act_bind_sizeless rfl fun _ => inferInstance
      · infer_instance

instance wipeResidues_sizeless {as : List Addr} : Sizeless (s.wipeResidues as) := by
  induction as with
  | nil => exact .pure _
  | cons a as ih =>
      unfold wipeResidues
      refine .bind fun _ => .bind fun _ => ?_
      split
      · exact .bind fun _ => .bind fun _ => act_bind_sizeless rfl fun _ => ih
      · exact ih

instance replaceResidue_sizeless {rate part : Int} {type : DeviceType} {as : List Addr} :
    Sizeless (s.replaceResidue rate type part as) := by
  induction as generalizing rate with
  | nil =>
      unfold replaceResidue
      exact act_sizeless rfl
  | cons a as ih =>
      unfold replaceResidue
      refine .bind fun _ => .bind fun _ => .bind fun _ => .bind fun _ => .bind fun _ => ?_
      split
      · refine .bind fun _ => ?_
        split
        split
        · exact ih
        · exact .bind fun _ => .bind fun _ => .bind fun _ => .bind fun _ => act_sizeless rfl
      · exact ih

instance shareFirst_sizeless {as : List Addr} : Sizeless (s.shareFirst as) := by
  induction as with
  | nil => exact .pure _
  | cons a as ih =>
      unfold shareFirst
      refine .bind fun _ => .bind fun _ => .bind fun _ => .bind fun _ => ?_
      split
      · exact ih
      · exact .bind fun _ => .bind fun _ => .bind fun _ => act_bind_sizeless rfl fun _ => inferInstance

instance allocateTimeShare_sizeless {tsNodes : List Addr} :
    Sizeless (s.allocateTimeShare tsNodes) := by
  have hloop : ∀ candidates fuel, Sizeless (s.shareLoop candidates fuel) := by
    intro candidates fuel
    induction fuel with
    | zero =>
        unfold shareLoop
        infer_instance
    | succ fuel ih =>
        unfold shareLoop
        infer_instance
  unfold allocateTimeShare
  infer_instance

instance forgetTask_sizeless {as : List Addr} : Sizeless (s.forgetTask as) := by
  induction as with
  | nil => exact .pure _
  | cons a as ih =>
      have hforget : Sizeless (s.act (.forget a)) := act_sizeless rfl
      have hoccupy : ∀ occupancy, Sizeless (s.act (.occupy a occupancy)) :=
        fun _ => act_sizeless rfl
      unfold forgetTask
      refine .bind fun _ => .bind fun _ => ?_
      extract_lets found update
      have hupdate : ∀ u, Sizeless (update u) := by
        intro u
        refine .bind fun _ => .bind fun _ => .bind fun _ => .bind fun _ => .bind fun _ => ?_
        refine .bind fun lists => ?_
        split
        infer_instance
      split
      · refine .bind fun lists => ?_
        split
        infer_instance
      · infer_instance

/-! ## Programs that ask for `_useRepartition` -/

variable [hrepart : Fact (s.useRepartition = false)]

instance allocateFitOne_sizeless {input : Node} : Sizeless (s.allocateFitOne input) := by
  have hleave : Sizeless (s.act .leave) := act_sizeless rfl
  unfold allocateFitOne
  refine .bind fun _ => .bind fun found => ?_
  split
  · infer_instance
  · refine .bind fun best => ?_
    extract_lets grows splits place
    have hsplits : splits = false := by
      simp only [splits, hrepart.out, Bool.and_false]
    have hplace : ∀ resized, Sizeless (place resized) := by
      intro resized
      cases resized with
      | none => exact .pure _
      | some n =>
          simp -zeta only [place, hsplits, Bool.false_eq_true, if_false]
          refine act_bind_sizeless rfl fun _ => .bind fun _ => .bind fun ret => ?_
          split
          · infer_instance
          · refine .bind fun _ => .bind fun _ => ?_
            split
            · exact act_bind_sizeless rfl fun _ => inferInstance
            · infer_instance
    infer_instance

instance allocateFit_sizeless {inputs : List Node} : Sizeless (s.allocateFit inputs) := by
  induction inputs with
  | nil =>
      have hfinish : Sizeless (s.act .finish) := act_sizeless rfl
      unfold allocateFit
      infer_instance
  | cons input inputs ih =>
      unfold allocateFit
      refine .bind fun _ => ?_
      split
      · infer_instance
      · exact ih

instance saturateBatch_sizeless {given : List Addr} : Sizeless (s.saturateBatch table a given) := by
  unfold saturateBatch
  refine .bind fun _ => ?_
  rw [if_neg fun h => by simp [hrepart.out] at h]
  infer_instance

instance splitResidue_sizeless {given : List Addr} : Sizeless (s.splitResidue table a given) := by
  unfold splitResidue
  refine .bind fun _ => ?_
  rw [if_neg fun h => by simp [hrepart.out] at h]
  infer_instance

instance unifyNodes_sizeless {gs : List Nat} : Sizeless (s.unifyNodes gs) := by
  induction gs with
  | nil => exact .pure _
  | cons g gs ih =>
      unfold unifyNodes
      refine .bind fun _ => ?_
      rw [if_neg fun h => by simp [hrepart.out] at h]
      exact ih

instance readjust_sizeless {given : List Addr} : Sizeless (s.readjust table given) := by
  have hsaturate : ∀ fuel given, Sizeless (s.saturateLoop table fuel given) := by
    intro fuel
    induction fuel with
    | zero => exact fun _ => query_sizeless
    | succ fuel ih =>
        intro given
        unfold saturateLoop
        refine .bind fun _ => ?_
        split
        · infer_instance
        · refine .bind fun _ => .bind fun _ => .bind fun found => ?_
          obtain ⟨batch, given⟩ := found
          refine .bind fun _ => .bind fun _ => .bind fun _ => .bind fun _ => ?_
          split
          · infer_instance
          · refine .bind fun placed => ?_
            cases placed with
            | none => exact .pure _
            | some u => exact ih _
  have hresidue : ∀ fuel given, Sizeless (s.residueLoop table fuel given) := by
    intro fuel
    induction fuel with
    | zero => exact fun _ => query_sizeless
    | succ fuel ih =>
        intro given
        unfold residueLoop
        refine .bind fun _ => ?_
        split
        · infer_instance
        · split
          · infer_instance
          · refine .bind fun _ => .bind fun _ => .bind fun _ => .bind fun placed => ?_
            cases placed with
            | none => exact .pure _
            | some u => exact ih _
  have habsorb : Sizeless (s.act .absorb) := act_sizeless rfl
  unfold readjust
  refine .bind fun sim => ?_
  extract_lets sorted loops
  have hloops : ∀ u, Sizeless (loops u) := by
    intro u
    refine .bind fun ended => ?_
    cases ended with
    | stop => exact .bind fun _ => .pure _
    | toResidue given => exact hresidue _ _
    | failed => exact .pure _
  clear_value loops
  infer_instance

instance mergeResidue_sizeless : Sizeless (s.mergeResidue table) := by
  unfold mergeResidue
  refine .bind fun _ => .bind fun _ => .bind fun _ => ?_
  dsimp only
  split
  · infer_instance
  · split
    · infer_instance
    · refine act_bind_sizeless rfl fun _ => .bind fun _ => .bind fun _ => .bind fun _ => ?_
      infer_instance

instance adjustAndShare_sizeless {given tsNodes : List Addr} :
    Sizeless (s.adjustAndShare table given tsNodes) := by
  unfold adjustAndShare
  refine .bind fun _ => .bind fun ret => ?_
  split
  · infer_instance
  · infer_instance

instance addModeltoSchedule_sizeless : Sizeless (s.addModeltoSchedule table task) := by
  unfold addModeltoSchedule
  refine act_bind_sizeless rfl fun _ => .bind fun _ => .bind fun _ => ?_
  split
  · refine .bind fun targets => ?_
    split
    infer_instance
  · refine .bind fun _ => ?_
    extract_lets estimate fallback
    have hfallback : ∀ fit, Sizeless (fallback fit) := by
      intro fit
      cases fit with
      | success => exact .pure _
      | failure => exact .bind fun _ => inferInstance
    refine .bind fun ret => ?_
    split
    all_goals infer_instance

instance elasticPartitioning_sizeless {session : List Task} :
    Sizeless (s.elasticPartitioning table session) := by
  have htasks : ∀ table ts, Sizeless (s.placeTasks table ts) := by
    intro table ts
    induction ts generalizing table with
    | nil => exact .pure _
    | cons t ts ih =>
        unfold placeTasks
        refine .bind fun _ => .bind fun ret => ?_
        cases ret with
        | success => exact ih _
        | failure => exact .pure _
  unfold elasticPartitioning
  exact act_bind_sizeless rfl fun _ => inferInstance

instance incrementalScehduling_sizeless {session : List Task} :
    Sizeless (s.incrementalScehduling table session) := by
  have hpasses : ∀ fuel table flagged session, Sizeless (s.passLoop fuel table flagged session) := by
    intro fuel
    induction fuel with
    | zero => exact fun _ _ _ => query_sizeless
    | succ fuel ih =>
        intro table flagged session
        unfold passLoop
        refine .bind fun pass => ?_
        obtain ⟨ret, sorted, table⟩ := pass
        cases ret with
        | failure => exact .pure _
        | success =>
            dsimp only
            split
            · refine .bind fun _ => ?_
              split
              · infer_instance
              · infer_instance
              · exact ih _ _ _
            · infer_instance
  have hinit : ∀ gpus, Sizeless (s.act (.initDevs gpus)) := fun _ => act_sizeless rfl
  unfold incrementalScehduling
  infer_instance

end Programs

end Scheduler

/-! ## Sizes -/

/-- The GPUs of a decision and what tells their nodes apart. -/
def SimState.sizes (sim : SimState) : List (Nat × DeviceType × List (Int × Int)) :=
  sim.vGPUList.map fun g => (g.GPUID, g.TYPE, g.vNodeList.map Node.key)

namespace SimState

variable {s : Scheduler} {sim sim' : SimState} {i : Nat} {n : Node} {a : Addr}

theorem sizes_getElem? : sim.sizes[i]? =
    (sim.vGPUList[i]?).map fun g => (g.GPUID, g.TYPE, g.vNodeList.map Node.key) :=
  List.getElem?_map

theorem sizes_of_layout (h : sim'.layout = sim.layout) : sim'.sizes = sim.sizes := by
  have hsizes : ∀ sim : SimState, sim.sizes =
      sim.layout.map fun g => (g.1, g.2.1, g.2.2.map Node.key) := by
    intro sim
    rw [layout, List.map_map]
    rfl
  rw [hsizes, hsizes, h]

theorem sizes_copy : (copyToOutput s sim).2.sizes = sim.sizes := by
  rw [sizes, sizes, copyToOutput, List.map_map]
  refine List.map_congr_left fun g _ => ?_
  simp only [Function.comp_apply, copyGPU, List.map_map]
  rfl

theorem sizes_modifyGPU {f : GPU → GPU} (h : ∀ g, sim.vGPUList[i]? = some g →
    ((f g).GPUID, (f g).TYPE, (f g).vNodeList.map Node.key) =
      (g.GPUID, g.TYPE, g.vNodeList.map Node.key)) : (sim.modifyGPU i f).sizes = sim.sizes := by
  apply List.ext_getElem?
  intro j
  rw [sizes_getElem?, sizes_getElem?, getElem?_modifyGPU]
  split
  case isTrue heq =>
    subst heq
    cases hg : sim.vGPUList[i]? with
    | none => rfl
    | some g => exact congrArg some (h g hg)
  case isFalse => rfl

theorem sizes_setNode {n' : Node} (hn : sim.node? a = some n) (h : n'.key = n.key) :
    (sim.setNode a n').sizes = sim.sizes := by
  refine sizes_modifyGPU fun g hg => ?_
  obtain ⟨g', hg', hnode⟩ := gpu_of_node? hn
  obtain rfl : g = g' := Option.some.inj (hg.symm.trans hg')
  rw [map_key_set hnode h]

end SimState

section Actions

variable {s : Scheduler} {c : Core} {act : Action} {table table' : SatTable}

/-- Only splits, merges and the setup of devices change the sizes. -/
theorem Detail.sizes_eq (hd : Detail s c act) (hkeep : act.resizes = false)
    (hsome : c.sim.vGPUList ≠ []) : (act.apply s.useRepartition c).sim.sizes = c.sim.sizes := by
  rcases Action.kinds s.useRepartition c act with ⟨a, f, hw⟩ | hq | ⟨gpus, rfl⟩ | ⟨a, part, rfl⟩ |
    ⟨k, rfl⟩
  · obtain ⟨n, hn⟩ := hd.written hw
    have hset : (c.write a f).sim.sizes = c.sim.sizes := by
      rw [Core.write_of_node hn]
      exact SimState.sizes_setNode hn (hd.writes_key hw hn).1
    rcases Action.apply_writes hw with hsim | ⟨used, -, hsim⟩
    · rw [hsim]
      exact hset
    · rw [hsim]
      refine Eq.trans (SimState.sizes_modifyGPU ?_) hset
      exact fun _ _ => rfl
  · apply List.ext_getElem?
    intro i
    have hquiet := congrArg (Option.map fun g => (g.1, g.2.1, g.2.2.map Node.key))
      (Action.quiet_gpu s.useRepartition c hq i)
    rw [Option.map_map, Option.map_map] at hquiet
    rw [SimState.sizes_getElem?, SimState.sizes_getElem?]
    exact hquiet
  · exact absurd hd.1 hsome
  · cases hkeep
  · cases hkeep

instance : Fact ((s.withRepart false).useRepartition = false) := ⟨rfl⟩

theorem runScheduling_resizes {tasks : List Task} {prev out : SimState} {o : Outcome}
    (h : s.runScheduling table tasks prev out false = .ok o) :
    ∀ q ∈ o.log, q.2.resizes = false := by
  obtain ⟨ret, tasks', table', r1, hinc, hend⟩ := Scheduler.runScheduling_cases h
  obtain ⟨l, hl, hkeep⟩ := Scheduler.incrementalScehduling_sizeless.logged _ _ _ hinc
  rw [List.append_nil] at hl
  rcases hend with ⟨-, rfl⟩ | ⟨-, r', rfl, rfl⟩
  · intro q hq
    exact hkeep q (hl ▸ hq)
  · intro q hq
    rcases List.mem_cons.mp hq with rfl | hq
    · rfl
    · exact hkeep q (hl ▸ hq)

/-- **Without repartitioning the GPUs keep their nodes**, whether the call
succeeds or not. -/
theorem runScheduling_sizes {tasks : List Task} {prev out : SimState} {o : Outcome}
    (htab : Built s table) (hsome : prev.vGPUList ≠ [])
    (h : s.runScheduling table tasks prev out false = .ok o) :
    o.prev.sizes = prev.sizes ∧ (o.ret = .success → o.out.sizes = prev.sizes) := by
  obtain ⟨-, r', hruns, hlog, hprev, hout, -⟩ := Scheduler.runScheduling_ok htab h
  have hempty : ∀ sim : SimState, sim.sizes = prev.sizes → sim.vGPUList ≠ [] := by
    intro sim hsizes hnil
    rw [SimState.sizes, SimState.sizes, hnil] at hsizes
    exact hsome (List.map_eq_nil_iff.mp hsizes.symm)
  have hend : r'.cur.sim.sizes = prev.sizes := by
    refine hruns.invariant (I := fun c => c.sim.sizes = prev.sizes)
      (C := fun _ act => act.resizes = false) ?_ ?_ rfl
    · intro c act hc hguard hkeep
      exact (hguard.1.1.sizes_eq hkeep (hempty c.sim hc)).trans hc
    · exact fun q hq => runScheduling_resizes h q (hlog ▸ hq)
  refine ⟨?_, fun hret => ?_⟩
  · rw [hprev]
    exact hend
  · rw [hout hret, SimState.sizes_copy]
    exact hend

/-! ## The saturation tables -/

namespace Scheduler

theorem placeTasks_table {ts : List Task} {ret : Ret} {r r' : Rec Core Action}
    (hrows : ∀ t ∈ ts, table t.id ≠ none)
    (h : s.placeTasks table ts r = .ok ((ret, table'), r')) : table' = table := by
  induction ts generalizing r with
  | nil => exact congrArg Prod.snd (pure_end h).1
  | cons t ts ih =>
      unfold placeTasks at h
      obtain ⟨table1, htable, hadd⟩ := query_bind h
      obtain rfl : table1 = table := by
        split at htable
        case h_1 hnone => exact absurd hnone (hrows t List.mem_cons_self)
        case h_2 => exact (Except.ok.inj htable).symm
      obtain ⟨ret1, r1, -, hrest⟩ := Prog.bind_ok hadd
      cases ret1 with
      | failure => exact congrArg Prod.snd (pure_end hrest).1
      | success => exact ih (fun t' ht' => hrows t' (List.mem_cons_of_mem t ht')) hrest

theorem passLoop_table {fuel : Nat} {flagged : List Int} {session tasks : List Task} {ret : Ret}
    {r r' : Rec Core Action} (hrows : ∀ t ∈ session, table t.id ≠ none)
    (h : s.passLoop fuel table flagged session r = .ok ((ret, tasks, table'), r')) :
    table' = table := by
  induction fuel using Nat.strong_induction_on generalizing flagged session r with
  | h fuel ih =>
      obtain ⟨k, ret1, sorted, table1, r1, rfl, hpass, hend⟩ := passLoop_cases h
      obtain ⟨rfl, hplace⟩ := elasticPartitioning_inv hpass
      have hsorted : ∀ t ∈ s.stdSort.sort cmpTaskDsc session, table t.id ≠ none :=
        fun t ht => hrows t ((sorted_perm session).mem_iff.mp ht)
      obtain rfl := placeTasks_table hsorted hplace
      cases hend with
      | failed => rfl
      | plain => rfl
      | twice => rfl
      | enough => rfl
      | retry _ hretry hnext =>
          refine ih k (Nat.lt_succ_self k) (fun t ht => ?_) hnext
          obtain ⟨t0, ht0, -, rfl⟩ := retryTasks_mem hretry t ht
          exact hsorted t0 ht0

/-- With tables for all tasks a call makes none. -/
theorem runScheduling_table {tasks : List Task} {prev out : SimState} {repart : Bool} {o : Outcome}
    (hrows : ∀ t ∈ tasks, table t.id ≠ none)
    (h : s.runScheduling table tasks prev out repart = .ok o) : o.table = table := by
  obtain ⟨ret, tasks', table', r1, hinc, hend⟩ := runScheduling_cases h
  obtain ⟨r0, -, -, hloop⟩ := incrementalScehduling_inv (init_settled prev) hinc
  have heq := passLoop_table hrows hloop
  rcases hend with ⟨-, rfl⟩ | ⟨-, r', -, rfl⟩
  · exact heq
  · exact heq

end Scheduler

end Actions

end Glet
