import Glet.BestFit
import Glet.Entries

/-!
# The rate that `mergeResidue` moves

`mergeResidue` clears every residue gpu-let of the task before it looks for a
node that takes what it collected. Either nothing is cleared, or a node takes
the collected rate and the truncations cost less than one request per residue,
or no node does and the throughput of the residues is gone: the task's rate
does not grow by it. `Stranded` says when the last case arises, in terms of the
decision before the call.
-/

namespace Glet

open Recorder LastMin

namespace Scheduler

variable {s : Scheduler} {r r' : Rec Core Action} {table : SatTable} {a : Addr} {id : Int}

/-! ## The residues -/

/-- The residue gpu-lets of a model. -/
def residuesOf (id : Int) (sim : SimState) : List Node := sim.nodes.filter (isResidueOf id)

/-- Throughput of the entries of a node. -/
def nodeThroughput (n : Node) : ℚ := (n.vTaskList.map (·.throughput)).sum

/-- The rate collected from residue gpu-lets: an `int` that their throughputs
are added to one by one. -/
def collect (rate : Int) (ns : List Node) : Int :=
  ns.foldl (fun acc n => toInt (acc + nodeThroughput n)) rate

/-- Saturated throughput of a model on the part of a node. -/
def satTrpOn (table : SatTable) (id : Int) (n : Node) : ℚ :=
  (getMaxSaturateTrp table id n.resourcePntg n.type).toOption.elim 0 Prod.fst

/-- The first residue gpu-let of least saturated throughput. -/
def weakest (table : SatTable) (id : Int) (sim : SimState) : Option Node :=
  lastMin (satTrpOn table id) (residuesOf id sim).reverse

/-- What `gatherResidues` returns, from the gpu-lets it has passed. -/
theorem gatherResidues_eq {ns : List Node} (pre : List Node) {acc found : Residues}
    (hacc : acc.minSat = (lastMin (satTrpOn table id) pre.reverse).map fun n =>
      (satTrpOn table id n, n.type, n.resourcePntg))
    (h : gatherResidues table id ns acc = .ok found) :
    found.rate = collect acc.rate (ns.filter (isResidueOf id)) ∧
      found.count = acc.count + (ns.filter (isResidueOf id)).length ∧
      found.minSat = (lastMin (satTrpOn table id) (pre ++ ns.filter (isResidueOf id)).reverse).map
        fun n => (satTrpOn table id n, n.type, n.resourcePntg) := by
  induction ns generalizing pre acc with
  | nil =>
      obtain rfl := Except.ok.inj h
      simpa [collect] using hacc
  | cons n ns ih =>
      simp only [gatherResidues] at h
      split at h
      case isFalse hres =>
        rw [List.filter_cons_of_neg hres]
        exact ih pre hacc h
      case isTrue hres =>
        simp only [Query.bind_ok, Prod.exists] at h
        obtain ⟨sat, batch, hsat, h⟩ := h
        have hsat' : satTrpOn table id n = sat := by rw [satTrpOn, hsat]; rfl
        rw [List.filter_cons_of_pos hres]
        refine (ih (pre ++ [n]) ?_ h).imp_right fun hrest => ⟨?_, ?_⟩
        · -- The running minimum gives way to a smaller throughput only.
          simp only [hacc, List.reverse_append, List.reverse_singleton, List.singleton_append, lastMin]
          cases lastMin (satTrpOn table id) pre.reverse with
          | none => simp [hsat']
          | some m =>
              simp only [Option.map_some, hsat']
              by_cases hlt : sat < satTrpOn table id m
              · rw [if_pos hlt, if_neg (not_le.mpr hlt), Option.map_some, hsat']
              · rw [if_neg hlt, if_pos (not_lt.mp hlt), Option.map_some]
        · rw [hrest.1, List.length_cons]
          dsimp only
          omega
        · rw [hrest.2, List.append_assoc, List.singleton_append]

/-- Each truncation costs less than one request. -/
theorem collect_ge (rate : Int) (ns : List Node) :
    rate + (ns.map nodeThroughput).sum - ns.length ≤ (collect rate ns : ℚ) := by
  induction ns generalizing rate with
  | nil => simp [collect]
  | cons n ns ih =>
      have hfloor : (⌊rate + nodeThroughput n⌋ : ℚ) ≤ toInt (rate + nodeThroughput n) := by
        exact_mod_cast floor_le_toInt _
      have hlt := Int.lt_floor_add_one (rate + nodeThroughput n)
      have hrest := ih (toInt (rate + nodeThroughput n))
      simp only [List.map_cons, List.sum_cons, List.length_cons]
      push_cast
      calc (rate : ℚ) + (nodeThroughput n + (ns.map nodeThroughput).sum) - (ns.length + 1)
          ≤ toInt (rate + nodeThroughput n) + (ns.map nodeThroughput).sum - ns.length := by linarith
        _ ≤ collect rate (n :: ns) := hrest

/-! ## Clearing them -/

/-- A gpu-let without its entries. -/
def clearedNode (n : Node) : Node := { n with vTaskList := [], dutyCycle := some 0, occupancy := 0 }

/-- The decision with the residue gpu-lets of a model cleared and their memory
released, one after the other. -/
def clearResidues (s : Scheduler) (id : Int) : List Addr → SimState → Query SimState
  | [], sim => .ok sim
  | a :: as, sim =>
      match sim.vGPUList[a.gpu]?, sim.node? a with
      | some gpu, some n =>
          if isResidueOf id n then do
            let used ← s.subtractedGPUMemUsage gpu id n
            clearResidues s id as ((sim.setNode a (clearedNode n)).modifyGPU a.gpu fun g =>
              { g with usedMemory := used })
          else clearResidues s id as sim
      | _, _ => .error .badAccess

/-- `wipeResidues` leaves the cleared decision and nothing else changed. -/
theorem wipeResidues_eq {as : List Addr} {u : Unit} (h : s.wipeResidues as r = .ok (u, r')) :
    s.clearResidues r.cur.task.id as r.cur.sim = .ok r'.cur.sim ∧ r'.cur.task = r.cur.task := by
  induction as generalizing r with
  | nil =>
      obtain ⟨-, rfl⟩ := pure_end h
      exact ⟨rfl, rfl⟩
  | cons a as ih =>
      unfold wipeResidues at h
      obtain ⟨n, hn, h⟩ := getNode_bind h
      replace h := getTask_bind h
      obtain ⟨g, hg, -⟩ := SimState.gpu_of_node? hn
      simp only [clearResidues, hg, hn]
      split at h
      case isFalse hres =>
        rw [if_neg hres]
        exact ih h
      case isTrue hres =>
        obtain ⟨gpu, hgpu, h⟩ := getGPU_bind h
        obtain rfl : g = gpu := Option.some.inj (hg.symm.trans hgpu)
        obtain ⟨used, hused, h⟩ := query_bind h
        replace h := act_bind h
        obtain ⟨hclear, htask⟩ := ih h
        obtain ⟨hid, -⟩ := wipe_task s.useRepartition r.cur a used
        have hsim : ((Action.wipe a used).apply s.useRepartition r.cur).sim =
            (r.cur.sim.setNode a (clearedNode n)).modifyGPU a.gpu fun g =>
              { g with usedMemory := used } := by
          simp only [Action.apply, Core.write_of_node hn]
          rfl
        rw [if_pos hres, hused, Query.ok_bind, ← hsim]
        rw [Prog.after_cur, hid] at hclear htask
        exact ⟨hclear, htask⟩

/-- Throughput of a model on the nodes that are no residues of it. -/
def keptThroughput (id : Int) (n : Node) : ℚ :=
  if isResidueOf id n then 0 else n.sumOf Task.throughput id

/-- A residue gpu-let holds an entry of the model alone. -/
theorem nodeThroughput_residue {n : Node} (h : isResidueOf id n = true) :
    nodeThroughput n = n.sumOf Task.throughput id := by
  obtain ⟨t, hts, hid⟩ := isResidueOf_single h
  rw [Node.sumOf_single _ hts hid, nodeThroughput, hts]
  simp

theorem throughputOf_residues (id : Int) (sim : SimState) :
    throughputOf id sim =
      sim.total (keptThroughput id) + ((residuesOf id sim).map nodeThroughput).sum := by
  rw [throughputOf_eq, SimState.total_eq_nodes, SimState.total_eq_nodes, residuesOf]
  induction sim.nodes with
  | nil => simp
  | cons n ns ih =>
      simp only [List.map_cons, List.sum_cons, ih, keptThroughput]
      by_cases hres : isResidueOf id n = true
      · rw [List.filter_cons_of_pos hres, if_pos hres, List.map_cons, List.sum_cons,
          nodeThroughput_residue hres]
        ring
      · rw [List.filter_cons_of_neg hres, if_neg hres]
        ring

theorem keptThroughput_empty {n : Node} (h : n.vTaskList = []) : keptThroughput id n = 0 := by
  unfold keptThroughput
  split
  · rfl
  · exact Node.sumOf_nil _ _ _ h

/-- Clearing residues leaves the rest of the model's throughput as it is. -/
theorem clearResidues_kept {as : List Addr} {sim cleared : SimState}
    (h : s.clearResidues id as sim = .ok cleared) :
    cleared.total (keptThroughput id) = sim.total (keptThroughput id) := by
  induction as generalizing sim with
  | nil =>
      obtain rfl := Except.ok.inj h
      rfl
  | cons a as ih =>
      simp only [clearResidues] at h
      split at h
      case h_2 => cases h
      case h_1 gpu n hgpu hn =>
        split at h
        case isFalse => exact ih h
        case isTrue hres =>
          obtain ⟨used, -, h⟩ := Query.bind_ok.mp h
          have hold : keptThroughput id n = 0 := if_pos hres
          rw [ih h, SimState.total_modifyGPU_same, SimState.total_setNode _ hn, hold,
            keptThroughput_empty rfl]
          · ring
          · exact fun _ => rfl

/-- What is left of the model's throughput once no residue is left. -/
theorem throughputOf_cleared {sim : SimState}
    (h : ∀ b n, sim.node? b = some n → isResidueOf id n = false) :
    throughputOf id sim = sim.total (keptThroughput id) := by
  have hnone : residuesOf id sim = [] := by
    refine List.filter_eq_nil_iff.mpr fun n hn => ?_
    obtain ⟨b, hb⟩ := SimState.mem_nodes.mp hn
    rw [h b n hb]
    exact Bool.false_ne_true
  rw [throughputOf_residues, hnone, List.map_nil, List.sum_nil, add_zero]

/-- A whole clearing loop: no residue is left, and what it leaves of the
throughput is that of the other nodes. -/
theorem wipeResidues_left {u : Unit} (h : s.wipeResidues r.cur.sim.addrs r = .ok (u, r'))
    (hphase : ∃ rate count, r.cur.phase = .moving rate count) :
    s.clearResidues r.cur.task.id r.cur.sim.addrs r.cur.sim = .ok r'.cur.sim ∧
      r'.cur.task = r.cur.task ∧
      (∀ b, r.cur.sim.node? b = none → r'.cur.sim.node? b = none) ∧
      throughputOf r.cur.task.id r'.cur.sim = throughputOf r.cur.task.id r.cur.sim -
        ((residuesOf r.cur.task.id r.cur.sim).map nodeThroughput).sum := by
  obtain ⟨-, -, -, hnone, hcleared⟩ := wipeResidues_ok h hphase
  obtain ⟨hclear, htask⟩ := wipeResidues_eq h
  refine ⟨hclear, htask, hnone, ?_⟩
  have hnores : ∀ b n, r'.cur.sim.node? b = some n → isResidueOf r.cur.task.id n = false := by
    intro b n hn
    have hb : Cleared r'.cur b := by
      cases hold : r.cur.sim.node? b with
      | none =>
          rw [hnone b hold] at hn
          cases hn
      | some m => exact hcleared b (Or.inl (SimState.mem_addrs.mpr ⟨m, hold⟩))
    rw [← htask]
    exact hb n hn
  rw [throughputOf_cleared hnores, clearResidues_kept hclear, throughputOf_residues]
  ring

/-! ## Placing what was collected -/

/-- The node at `a` takes a rate: its memory suffices, it is empty and of the
wanted type and part, and `getMaxBatch` finds a batch size for the rate. -/
def Takes (s : Scheduler) (task : Task) (rate : Int) (type : DeviceType) (part : Int)
    (sim : SimState) (a : Addr) : Prop :=
  ∃ gpu n, sim.vGPUList[a.gpu]? = some gpu ∧ sim.node? a = some n ∧
    (s.checkMem = true → s.doesFitMemLimit gpu task.id n = .ok true) ∧
    n.vTaskList = [] ∧ n.type = type ∧ n.resourcePntg = part ∧
    ∃ batch rate', s.getMaxBatch task.id task.SLO n sim rate true true = .ok (batch, rate') ∧
      batch ≠ 0

theorem MaxBatch.rate_zero {SLO req req' : Int} {node : Node} {sim : SimState}
    {isResidue interference : Bool}
    (h : MaxBatch s id SLO node sim req isResidue interference 0 req') : req' = req := by
  generalize hb : (0 : Int) = b at h
  cases h with
  | found h1 => omega
  | corner => cases hb
  | none => rfl

/-- Either the first node that takes the rate gets it, and the task is left
with none, or no node takes it and nothing changes. -/
theorem replaceResidue_eq {rate : Int} {type : DeviceType} {part : Int} {as : List Addr} {u : Unit}
    (h : s.replaceResidue rate type part as r = .ok (u, r')) :
    ((∃ a ∈ as, s.Takes r.cur.task rate type part r.cur.sim a) ∧
        r'.cur.task.requestRate = 0 ∧
        throughputOf r.cur.task.id r.cur.sim + rate ≤ throughputOf r.cur.task.id r'.cur.sim) ∨
      ((∀ a ∈ as, ¬ s.Takes r.cur.task rate type part r.cur.sim a) ∧
        r'.cur.task = r.cur.task ∧ r'.cur.sim = r.cur.sim) := by
  induction as with
  | nil =>
      obtain rfl := act_end h
      exact Or.inr ⟨by simp, rfl, rfl⟩
  | cons a as ih =>
      unfold replaceResidue at h
      obtain ⟨n, hn, h⟩ := getNode_bind h
      replace h := getTask_bind h
      replace h := getSim_bind h
      obtain ⟨gpu, hgpu, h⟩ := getGPU_bind h
      obtain ⟨memOK, hmem, h⟩ := query_bind h
      have hrest : ¬ s.Takes r.cur.task rate type part r.cur.sim a →
          s.replaceResidue rate type part as r = .ok (u, r') →
          ((∃ b ∈ a :: as, s.Takes r.cur.task rate type part r.cur.sim b) ∧
              r'.cur.task.requestRate = 0 ∧
              throughputOf r.cur.task.id r.cur.sim + rate ≤ throughputOf r.cur.task.id r'.cur.sim) ∨
            ((∀ b ∈ a :: as, ¬ s.Takes r.cur.task rate type part r.cur.sim b) ∧
              r'.cur.task = r.cur.task ∧ r'.cur.sim = r.cur.sim) := by
        intro hnot hrun
        rcases ih hrun with ⟨⟨b, hb, htakes⟩, hplaced⟩ | ⟨hnone, hsame⟩
        · exact Or.inl ⟨⟨b, List.mem_cons_of_mem a hb, htakes⟩, hplaced⟩
        · exact Or.inr ⟨List.forall_mem_cons.mpr ⟨hnot, hnone⟩, hsame⟩
      split at h
      case isFalse hcond =>
        refine hrest ?_ h
        rintro ⟨gpu', m, hgpu', hm, hfit, hempty, htype, hpart, -⟩
        obtain rfl := Option.some.inj (hn.symm.trans hm)
        obtain rfl := Option.some.inj (hgpu.symm.trans hgpu')
        refine hcond ⟨?_, hempty, htype, hpart⟩
        split at hmem
        case isTrue hcheck => exact Except.ok.inj (hmem.symm.trans (hfit hcheck))
        case isFalse => exact (Except.ok.inj hmem).symm
      case isTrue hcond =>
        obtain ⟨⟨batch, rate'⟩, hmax, h⟩ := query_bind h
        have hspec := getMaxBatch_ok hmax
        dsimp only at h
        split at h
        case isTrue hb0 =>
          subst hb0
          rw [hspec.rate_zero] at h
          refine hrest ?_ h
          rintro ⟨gpu', m, -, hm, -, -, -, -, batch, rate, hmax', hne⟩
          obtain rfl := Option.some.inj (hn.symm.trans hm)
          obtain ⟨rfl, -⟩ := Prod.mk.injEq .. |>.mp (Except.ok.inj (hmax.symm.trans hmax'))
          exact hne rfl
        case isFalse hb0 =>
          have hge := hspec.rate_ge (Or.inl rfl)
          obtain ⟨duty, hduty, h⟩ := query_bind h
          obtain ⟨hr0, rfl⟩ := fdiv_ok.mp hduty
          obtain ⟨latency, -, h⟩ := query_bind h
          obtain ⟨occ, -, h⟩ := query_bind h
          obtain ⟨trp, htrp, h⟩ := query_bind h
          obtain ⟨-, rfl⟩ := fdiv_ok.mp htrp
          obtain rfl := act_end h
          have hbne : (batch : ℚ) ≠ 0 := by exact_mod_cast hb0
          have hrne : (rate' : ℚ) ≠ 0 := by exact_mod_cast hr0
          have htrp_eq : (batch * 1000 / (batch * 1000 / rate') : ℚ) = rate' := by field_simp
          refine Or.inl ⟨⟨a, List.mem_cons_self .., gpu, n, hgpu, hn, fun hcheck => ?_, hcond.2.1,
            hcond.2.2.1, hcond.2.2.2, batch, rate', hmax, hb0⟩, ?_, ?_⟩
          · rw [if_pos hcheck] at hmem
            rw [hmem, hcond.1]
          · simp [Action.apply, Core.setRate, htrp_eq]
          · have hgeq : (rate : ℚ) ≤ rate' := by exact_mod_cast hge
            have hnew : ∀ (t : Task) (duty : Option ℚ) (occ : ℚ), t.id = r.cur.task.id →
                Node.sumOf Task.throughput r.cur.task.id
                  { n with vTaskList := n.vTaskList ++ [t], dutyCycle := duty, occupancy := occ } =
                t.throughput := fun t duty occ hid =>
              Node.sumOf_single _ (by rw [hcond.2.1]; rfl) hid
            rw [throughputOf_eq, throughputOf_eq, Prog.after_cur,
              SimState.total_writes _ (.merged a _ _ _ _) rfl hn, Node.sumOf_nil _ _ _ hcond.2.1,
              hnew]
            · simp only [createNewTask, htrp_eq]
              linarith
            · rfl

/-- Merging empty nodes changes neither rate nor throughput. -/
theorem unifyNodes_eq {gs : List Nat} {u : Unit} (h : s.unifyNodes gs r = .ok (u, r')) :
    throughputOf id r'.cur.sim = throughputOf id r.cur.sim := by
  induction gs generalizing r with
  | nil =>
      obtain ⟨-, rfl⟩ := pure_end h
      rfl
  | cons g gs ih =>
      unfold unifyNodes at h
      obtain ⟨gpu, hgpu, h⟩ := getGPU_bind h
      split at h
      case isFalse => exact ih h
      case isTrue hcond =>
        replace h := act_bind h
        have hempty : ∀ n ∈ gpu.vNodeList, n.vTaskList = [] := fun n hn => by
          simpa using List.all_eq_true.mp hcond.2.1 n hn
        rw [ih h, throughputOf_eq, throughputOf_eq]
        simp only [Prog.after_cur, Action.apply]
        rw [SimState.total_modifyGPU _ _ hgpu, GPU.total_unify (Node.sumOf_nil _ _) hempty,
          GPU.total_empty (Node.sumOf_nil _ _) hempty, sub_self, add_zero]

/-! ## The balance -/

/-- The residues are cleared and no node takes what was collected from them. -/
def Stranded (s : Scheduler) (table : SatTable) (task : Task) (sim : SimState) : Prop :=
  ∃ n, weakest table task.id sim = some n ∧
    ¬ ((residuesOf task.id sim).length = 1 ∧
      collect task.requestRate (residuesOf task.id sim) < trpSlack) ∧
    (collect task.requestRate (residuesOf task.id sim) : ℚ) ≤ satTrpOn table task.id n ∧
    ∃ cleared, s.clearResidues task.id sim.addrs sim = .ok cleared ∧
      ∀ a, ¬ s.Takes task (collect task.requestRate (residuesOf task.id sim)) n.type
        n.resourcePntg cleared a

/-- The rate still to be placed together with the rate that is. -/
def balance (id : Int) (c : Core) : ℚ := c.task.requestRate + throughputOf id c.sim

/-- What `mergeResidue` does to the balance: it loses the throughput of the
residues when they are stranded, and less than one request per residue
otherwise. -/
theorem mergeResidue_balance {ret : Ret} (h : s.mergeResidue table r = .ok (ret, r')) :
    (s.Stranded table r.cur.task r.cur.sim ∧
        balance r.cur.task.id r'.cur = balance r.cur.task.id r.cur -
          ((residuesOf r.cur.task.id r.cur.sim).map nodeThroughput).sum) ∨
      (¬ s.Stranded table r.cur.task r.cur.sim ∧
        balance r.cur.task.id r.cur - (residuesOf r.cur.task.id r.cur.sim).length ≤
          balance r.cur.task.id r'.cur) := by
  unfold mergeResidue at h
  replace h := getTask_bind h
  replace h := getSim_bind h
  obtain ⟨found, hfound, h⟩ := query_bind h
  obtain ⟨hrate, hcount, hmin⟩ := gatherResidues_eq [] rfl hfound
  rw [List.nil_append] at hmin
  change found.rate = collect r.cur.task.requestRate (residuesOf r.cur.task.id r.cur.sim) at hrate
  change found.count = 0 + (residuesOf r.cur.task.id r.cur.sim).length at hcount
  change found.minSat = (weakest table r.cur.task.id r.cur.sim).map _ at hmin
  rw [zero_add] at hcount
  have hkept : ∀ c : Core, c = r.cur → balance r.cur.task.id r.cur -
      ((residuesOf r.cur.task.id r.cur.sim).length : ℚ) ≤ balance r.cur.task.id c := by
    rintro c rfl
    have : (0 : ℚ) ≤ (residuesOf r.cur.task.id r.cur.sim).length := Nat.cast_nonneg _
    linarith
  dsimp only at h
  cases hweak : weakest table r.cur.task.id r.cur.sim with
  | none =>
      rw [hmin, hweak] at h
      obtain ⟨-, rfl⟩ := pure_end h
      refine Or.inr ⟨?_, hkept _ rfl⟩
      rintro ⟨n, hn, -⟩
      rw [hweak] at hn
      cases hn
  | some n =>
      rw [hmin, hweak] at h
      simp only [Option.map_some] at h
      split at h
      case isTrue hskip =>
        obtain ⟨-, rfl⟩ := pure_end h
        refine Or.inr ⟨?_, hkept _ rfl⟩
        rintro ⟨n', hn', hone, hle, -⟩
        obtain rfl := Option.some.inj (hweak.symm.trans hn')
        rw [hcount, hrate] at hskip
        rcases hskip with hskip | hskip
        · exact hone hskip
        · exact absurd hle (not_le.mpr hskip)
      case isFalse hgo =>
        rw [hcount, hrate] at hgo
        replace h := act_bind h
        obtain ⟨⟨⟩, r1, hwipe, h⟩ := Prog.bind_ok h
        obtain ⟨hclear, htask1, hnone1, hleft⟩ :=
          wipeResidues_left (r := s.did (.gather found.rate found.count) r) hwipe ⟨_, _, rfl⟩
        change s.clearResidues r.cur.task.id r.cur.sim.addrs r.cur.sim = .ok r1.cur.sim at hclear
        change r1.cur.task = r.cur.task at htask1
        change ∀ b, r.cur.sim.node? b = none → r1.cur.sim.node? b = none at hnone1
        change throughputOf r.cur.task.id r1.cur.sim = throughputOf r.cur.task.id r.cur.sim -
          ((residuesOf r.cur.task.id r.cur.sim).map nodeThroughput).sum at hleft
        obtain ⟨⟨⟩, r2, hrepl, h⟩ := Prog.bind_ok h
        rw [hrate] at hrepl
        have hend : r'.cur.task = r2.cur.task ∧
            throughputOf r.cur.task.id r'.cur.sim = throughputOf r.cur.task.id r2.cur.sim := by
          replace h := getTask_bind h
          split at h
          case isTrue =>
            obtain ⟨-, rfl⟩ := pure_end h
            exact ⟨rfl, rfl⟩
          case isFalse =>
            obtain ⟨⟨⟩, r3, hunify, h⟩ := Prog.bind_ok h
            obtain ⟨-, rfl⟩ := pure_end h
            exact ⟨(unifyNodes_ok hunify).2.1, unifyNodes_eq hunify⟩
        have hplaced := replaceResidue_eq hrepl
        rw [htask1] at hplaced
        rcases hplaced with ⟨⟨a, -, htakes⟩, hzero, hge⟩ | ⟨hnone, htask2, hsim2⟩
        · refine Or.inr ⟨?_, ?_⟩
          · rintro ⟨n', hn', -, -, cleared, hclear', hnot⟩
            obtain rfl := Option.some.inj (hweak.symm.trans hn')
            obtain rfl := Except.ok.inj (hclear.symm.trans hclear')
            exact hnot a htakes
          · have hcollect := collect_ge r.cur.task.requestRate (residuesOf r.cur.task.id r.cur.sim)
            rw [balance, balance, hend.1, hend.2, hzero]
            push_cast
            linarith
        · refine Or.inl ⟨⟨n, hweak, fun hone => hgo (Or.inl hone),
            not_lt.mp fun hlt => hgo (Or.inr hlt), r1.cur.sim, hclear, fun a htakes => ?_⟩, ?_⟩
          · refine hnone a ?_ htakes
            obtain ⟨-, m, -, hm, -⟩ := htakes
            refine SimState.mem_addrs.mpr (Option.ne_none_iff_exists'.mp fun hnil => ?_)
            rw [hnone1 a hnil] at hm
            cases hm
          · rw [balance, balance, hend.1, hend.2, htask2, hsim2, hleft]
            ring

/-- The rate is conserved up to one request per residue and one more, whatever
is returned, exactly when the residues are not stranded or carry no more than
that. -/
theorem mergeResidue_conserves_iff {ret : Ret} (h : s.mergeResidue table r = .ok (ret, r')) :
    (r.cur.task.requestRate + throughputOf r.cur.task.id r.cur.sim -
        ((residuesOf r.cur.task.id r.cur.sim).length + 1) ≤
      r'.cur.task.requestRate + throughputOf r.cur.task.id r'.cur.sim) ↔
      (s.Stranded table r.cur.task r.cur.sim →
        ((residuesOf r.cur.task.id r.cur.sim).map nodeThroughput).sum ≤
          (residuesOf r.cur.task.id r.cur.sim).length + 1) := by
  change balance r.cur.task.id r.cur - _ ≤ balance r.cur.task.id r'.cur ↔ _
  rcases mergeResidue_balance h with ⟨hstranded, hlost⟩ | ⟨hnot, hkept⟩
  · rw [hlost]
    constructor
    · intro hle _
      linarith
    · intro hle
      linarith [hle hstranded]
  · refine iff_of_true ?_ fun hstranded => absurd hstranded hnot
    linarith

/-- A residue of model 0 with 20 requests per second. -/
def residueHalf : Node :=
  { makeEmptyNode 0 50 "gpu" with
    vTaskList := [createNewTask 0 20 100 1 20], dutyCycle := some 50, occupancy := 30 / 50
    dedupNum := 1 }

/-- A GPU with model 1 on its first half. -/
def besideModel (n : Node) (used : Int) : SimState :=
  ⟨[{ GPUID := 0, totalMemory := 11000, usedMemory := used, TYPE := "gpu"
      vLoadedParts := [⟨50, 0⟩, ⟨50, 1⟩], vNodeList := [busyHalf, n] }], []⟩

/-- 20 more requests of model 0 are left. -/
def besideResidue : Rec Core Action :=
  ⟨{ Core.init (besideModel residueHalf 2560) with task := request 0 20 100 }, []⟩

/-- The saturation table of a model with 30 ms at every batch size. -/
def halfTable : SatTable := fun _ => some [⟨50, 31, 31 * 1000 / 30, "gpu"⟩]

/-- Beside model 1 the 30 ms of model 0 are 90: no batch size of 40 requests per
second is within 100 ms, and the 20 of the residue are gone. -/
theorem mergeResidue_strands :
    ∃ r', (disturbing 30 3).mergeResidue halfTable besideResidue = .ok (.failure, r') ∧
      ¬ (besideResidue.cur.task.requestRate + throughputOf 0 besideResidue.cur.sim -
          ((residuesOf 0 besideResidue.cur.sim).length + 1) ≤
        r'.cur.task.requestRate + throughputOf 0 r'.cur.sim) := by
  obtain ⟨⟨ret, r'⟩, hrun, hp⟩ := Query.of_returns
    (p := fun x => decide (x.1 = .failure ∧ x.2.cur.task.requestRate = 20 ∧
      throughputOf 0 x.2.cur.sim = 0))
    (q := (disturbing 30 3).mergeResidue halfTable besideResidue) (by decide +kernel)
  obtain ⟨rfl, hrate, htrp⟩ := of_decide_eq_true hp
  have hbefore : throughputOf 0 besideResidue.cur.sim = 20 := by decide +kernel
  have hlen : (residuesOf 0 besideResidue.cur.sim).length = 1 := by decide +kernel
  refine ⟨r', hrun, ?_⟩
  rw [hrate, htrp, hbefore, hlen]
  norm_num [besideResidue, request, createNewTask]

/-- Beside a model that does not slow it down the half takes all 40. -/
theorem mergeResidue_conserves_at :
    ∃ ret r', (disturbing 30 1).mergeResidue halfTable besideResidue = .ok (ret, r') ∧
      besideResidue.cur.task.requestRate + throughputOf 0 besideResidue.cur.sim -
          ((residuesOf 0 besideResidue.cur.sim).length + 1) ≤
        r'.cur.task.requestRate + throughputOf 0 r'.cur.sim := by
  obtain ⟨⟨ret, r'⟩, hrun, -⟩ := Query.of_returns (p := fun _ => true)
    (q := (disturbing 30 1).mergeResidue halfTable besideResidue) (by decide +kernel)
  refine ⟨ret, r', hrun, (mergeResidue_conserves_iff hrun).mpr ?_⟩
  rintro ⟨n, hn, -, -, cleared, hclear, hnone⟩
  obtain rfl : residueHalf = n := Option.some.inj (Eq.trans (by decide +kernel) hn)
  obtain rfl : besideModel (clearedNode residueHalf) 2510 = cleared :=
    Except.ok.inj (Eq.trans (by decide +kernel) hclear)
  exact absurd ⟨_, clearedNode residueHalf, rfl, rfl, fun _ => by decide +kernel, rfl, rfl, rfl, 2,
    40, by decide +kernel, by decide⟩ (hnone ⟨0, 1⟩)

end Scheduler

end Glet
