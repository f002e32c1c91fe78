import Glet.Bandwidth
import Glet.Memory
import Glet.Partition
import Glet.BestFit

/-!
# Taking a placement back

`checkNeedtoRevert` adjusts the neighbours of a new gpu-let while it is still
deciding, and `revertNode` resets the new node only. Nothing is left behind all
the same: the bandwidth test cannot fail after `adjustBatchSizetoNetBW`
(`place_withinBandwidth`), a GPU has at most one other node, and the adjustment
of that node either fails, without a write, or does not ask for a revert
(`adjustOtherNodes_reverts`).
-/

namespace Glet

open Recorder

namespace Scheduler

variable {s : Scheduler} {r r1 r2 r3 : Rec Core Action} {a b₀ : Addr} {n : Node} {t t' : Task}
  {gpu : GPU}

/-! ## The bandwidth test -/

/-- What `adjustBatchSizetoNetBW` leaves of a task fits beside what the GPU
carries. -/
theorem netBatchLoop_fits {remainBW : ℚ} {i : Nat}
    (h : s.netBatchLoop t remainBW i = .ok (some t')) :
    s.requiredBytes [t'] * 8 / 1024 / 1024 / 1024 ≤ remainBW := by
  induction i with
  | zero => cases Except.ok.inj h
  | succ i ih =>
      simp only [netBatchLoop, Query.bind_ok, fdiv_ok] at h
      obtain ⟨ratio, ⟨-, rfl⟩, h⟩ := h
      split at h
      case isTrue hfits =>
        obtain rfl := Option.some.inj (Query.pure_ok.mp h)
        simpa [requiredBytes] using hfits
      case isFalse => exact ih h

theorem limitToNetBW_fits (h : s.limitToNetBW t gpu = .ok (some t')) (hbw : s.checkNetBW = true) :
    s.getRequiredBandwidth gpu + s.requiredBytes [t'] * 8 / 1024 / 1024 / 1024 ≤ limitGbits := by
  simp only [limitToNetBW, hbw, if_true, adjustBatchSizetoNetBW] at h
  split at h
  case isTrue => cases Query.pure_ok.mp h
  case isFalse hroom =>
    simp only [Query.bind_ok] at h
    obtain ⟨-, -, h⟩ := h
    have hfits := netBatchLoop_fits h
    rcases le_total (limitGbits - s.getRequiredBandwidth gpu) 0 with hle | hge
    · exact absurd (max_eq_right hle) hroom
    · rw [max_eq_left hge] at hfits
      linarith

/-- The GPU is within its bandwidth once the task is on the node. -/
theorem place_withinBandwidth {sim : SimState} {n' : Node} {g' : GPU}
    (hn : sim.node? a = some n) (hgpu : sim.vGPUList[a.gpu]? = some gpu)
    (hlimit : s.limitToNetBW t gpu = .ok (some t')) (hbw : s.checkNetBW = true)
    (htasks : n'.vTaskList = n.vTaskList ++ [t'])
    (hg' : (sim.setNode a n').vGPUList[a.gpu]? = some g') : s.isBandwidthOK g' = true := by
  obtain ⟨g, hg, hj⟩ := SimState.gpu_of_node? hn
  obtain rfl : gpu = g := Option.some.inj (hgpu.symm.trans hg)
  simp only [SimState.setNode, SimState.getElem?_modifyGPU, if_true, hg, Option.map_some,
    Option.some.injEq] at hg'
  subst hg'
  have hnew : s.nodeGbits n' = s.nodeGbits n + s.requiredBytes [t'] * 8 / 1024 / 1024 / 1024 := by
    simp only [nodeGbits, htasks, requiredBytes_append]
    ring
  have hfits := limitToNetBW_fits hlimit hbw
  rw [isBandwidthOK, decide_eq_true_eq, getRequiredBandwidth_eq, GPU.total_set _ hj, hnew,
    ← getRequiredBandwidth_eq]
  linarith

/-! ## At most one neighbour -/

/-- The loop over the other nodes skips those with the new node's key. -/
theorem adjustOtherNodes_skip {new : Node} {bs : List Addr} {revert revert' : Bool}
    (hsame : ∀ b ∈ bs, ∃ m, r.cur.sim.node? b = some m ∧ m.key = new.key)
    (h : s.adjustOtherNodes new bs revert r = .ok (revert', r1)) : revert' = revert ∧ r1 = r := by
  induction bs with
  | nil => exact pure_end h
  | cons b bs ih =>
      obtain ⟨m, hm, hkey⟩ := hsame b (List.mem_cons_self ..)
      unfold adjustOtherNodes at h
      obtain ⟨m', hm', h⟩ := getNode_bind h
      obtain rfl : m = m' := Option.some.inj (hm.symm.trans hm')
      replace h := getSim_bind h
      obtain ⟨hpart, hdedup⟩ := Prod.mk.injEq .. |>.mp hkey
      rw [if_pos ⟨hdedup, hpart⟩] at h
      exact ih (fun b hb => hsame b (List.mem_cons_of_mem _ hb)) h

/-- With one neighbour `b₀` at most, a loop that asks for a revert has written
nothing: an adjustment that fails writes nothing, and after one that succeeds
no other can fail. -/
theorem adjustOtherNodes_reverts {new m : Node} {bs : List Addr} (hnodup : bs.Nodup)
    (hne : b₀ ≠ a) (hone : ∀ b ∈ bs, b ≠ b₀ → b = a) (hm : r.cur.sim.node? a = some m)
    (hkey : m.key = new.key) (h : s.adjustOtherNodes new bs false r = .ok (true, r1)) : r1 = r := by
  induction bs with
  | nil =>
      obtain ⟨hfalse, -⟩ := pure_end h
      cases hfalse
  | cons b bs ih =>
      obtain ⟨hb, hnodup'⟩ := List.nodup_cons.mp hnodup
      have hrest : ∀ sim : SimState, b = b₀ → sim.node? a = some m →
          ∀ c ∈ bs, ∃ m, sim.node? c = some m ∧ m.key = new.key := by
        rintro sim rfl hma c hc
        have hca : c = a := hone c (List.mem_cons_of_mem _ hc) fun heq => hb (heq ▸ hc)
        rw [hca]
        exact ⟨m, hma, hkey⟩
      unfold adjustOtherNodes at h
      obtain ⟨mb, hmb, h⟩ := getNode_bind h
      replace h := getSim_bind h
      split at h
      case isTrue => exact ih hnodup' (fun c hc => hone c (List.mem_cons_of_mem _ hc)) h
      case isFalse hother =>
        have hb₀ : b = b₀ := by
          by_contra hne'
          obtain rfl := hone b (List.mem_cons_self ..) hne'
          obtain rfl : m = mb := Option.some.inj (hm.symm.trans hmb)
          obtain ⟨hpart, hdedup⟩ := Prod.mk.injEq .. |>.mp hkey
          exact hother ⟨hdedup, hpart⟩
        have hkeeps : ∀ n', (s.did (.adjust b n') r).cur.sim.node? a = some m := by
          intro n'
          simp only [did, Prog.after_cur, Action.apply, Core.write_of_node hmb]
          rw [SimState.node?_setNode_ne (by rw [hb₀]; exact hne.symm), hm]
        split at h
        · obtain ⟨o, ho, h⟩ := query_bind h
          cases o with
          | none => exact (pure_end h).2
          | some p =>
              obtain ⟨n', lost⟩ := p
              replace h := act_bind h
              obtain ⟨hfalse, -⟩ := adjustOtherNodes_skip (hrest _ hb₀ (hkeeps _)) h
              cases hfalse
        · obtain ⟨o, ho, h⟩ := query_bind h
          cases o with
          | none => exact (adjustOtherNodes_skip (hrest _ hb₀ hm) h).2
          | some n' =>
              replace h := act_bind h
              obtain ⟨hfalse, -⟩ := adjustOtherNodes_skip (hrest _ hb₀ (hkeeps _)) h
              cases hfalse

/-! ## Attempts -/

/-- A placement attempt of `readjust` on `a` has got from `r` to `r1`, where
`checkNeedtoRevert` is asked. The residue loop has written the rate, the duty
cycle and the occupancy before. -/
inductive Placed (s : Scheduler) (a : Addr) : Rec Core Action → Rec Core Action → Prop
  | saturated {r : Rec Core Action} {n : Node} {gpu : GPU} {t : Task} {batch : Int}
      {latency trp : ℚ} : r.cur.sim.node? a = some n → r.cur.sim.vGPUList[n.id]? = some gpu →
      s.limitToNetBW (createNewTask r.cur.task.id r.cur.task.requestRate r.cur.task.SLO batch trp)
        gpu = .ok (some t) →
      Placed s a r (s.did (.place a .saturated t latency 1) r)
  | residue {r r' : Rec Core Action} {n : Node} {gpu : GPU} {t : Task} {batch rate : Int}
      {duty occ trp : ℚ} : r.cur.sim.node? a = some n →
      r' = s.did (.prime a duty n.occupancy) (s.did (.rerate rate) r) →
      r'.cur.sim.vGPUList[n.id]? = some gpu →
      s.limitToNetBW (createNewTask r.cur.task.id rate r.cur.task.SLO batch trp) gpu =
        .ok (some t) →
      Placed s a r (s.did (.place a .residue t duty occ) (s.did (.prime a duty occ) r'))

/-- The two kinds of attempts of `readjust` to place its task. -/
inductive Attempt where
  | saturated (batch : Int) (latency trp : ℚ)
  | residue

/-- How far an attempt got before `checkNeedtoRevert`: the network limit or the
memory limit ended it, or the task is on its node. -/
inductive Put where
  | noBandwidth
  | noMemory
  | put (t : Task)

def Put.onNode : Put → Bool
  | .put _ => true
  | _ => false

/-- `placeSaturated` up to `checkNeedtoRevert`. -/
def putSaturated (s : Scheduler) (a : Addr) (batch : Int) (latency trp : ℚ) : Sched Put := do
  let task ← getTask
  let node ← getNode a
  let gpu ← getGPU node.id
  match ← query (s.limitToNetBW (createNewTask task.id task.requestRate task.SLO batch trp) gpu) with
  | none => pure .noBandwidth
  | some t => do
      let fits ← query (s.doesFitMemLimit gpu task.id node)
      if fits then do
        s.act (.place a .saturated t latency 1)
        pure (.put t)
      else pure .noMemory

/-- `placeResidue` up to `checkNeedtoRevert`; a batch size of 0 ends it too. -/
def putResidue (s : Scheduler) (a : Addr) : Sched Put := do
  let node ← getNode a
  let sim ← getSim
  let task ← getTask
  let (batch, rate) ← query (s.getMaxBatch task.id task.SLO node sim task.requestRate true true)
  s.act (.rerate rate)
  if batch = 0 then pure .noBandwidth
  else
    let period ← query (fdiv 1000 rate)
    let duty := batch * period
    s.act (.prime a duty node.occupancy)
    let trp ← query (fdiv (1000 * batch) duty)
    let gpu ← getGPU node.id
    match ← query (s.limitToNetBW (createNewTask task.id rate task.SLO batch trp) gpu) with
    | none => pure .noBandwidth
    | some t => do
        let latency ← query (s.getLatencyOn node.type task.id t.batchSize node sim)
        let occupancy ← query (fdiv latency duty)
        s.act (.prime a duty occupancy)
        let fits ← query (s.doesFitMemLimit gpu task.id node)
        if fits then do
          s.act (.place a .residue t duty occupancy)
          pure (.put t)
        else pure .noMemory

namespace Attempt

/-- The attempt as `readjust` makes it. -/
def run (s : Scheduler) (a : Addr) : Attempt → Sched (Option Unit)
  | .saturated batch latency trp => s.placeSaturated a batch latency trp
  | .residue => s.placeResidue a

/-- The attempt up to `checkNeedtoRevert`. -/
def before (s : Scheduler) (a : Addr) : Attempt → Sched Put
  | .saturated batch latency trp => s.putSaturated a batch latency trp
  | .residue => s.putResidue a

/-- The rate left when the gpu-let is kept. -/
def remaining : Attempt → Int → ℚ → Int
  | .saturated .., rate, trp => toInt (rate - trp)
  | .residue, rate, trp => if trp ≤ rate then toInt (rate - trp) else 0

/-- What follows on `before`. -/
def goOn (s : Scheduler) (a : Addr) (k : Attempt) : Put → Sched (Option Unit)
  | .noBandwidth => pure none
  | .noMemory => pure (some ())
  | .put t => do
      s.settle a t k.remaining
      pure (some ())

/-- `checkNeedtoRevert` is asked where `before` has ended. -/
theorem run_eq (k : Attempt) : k.run s a = k.before s a >>= k.goOn s a := by
  cases k with
  | saturated batch latency trp =>
      simp only [run, before, placeSaturated, putSaturated, bind_assoc]
      refine bind_congr fun task => bind_congr fun node => bind_congr fun gpu =>
        bind_congr fun o => ?_
      cases o with
      | none => rfl
      | some t =>
          simp only [bind_assoc]
          refine bind_congr fun fits => ?_
          cases fits <;> rfl
  | residue =>
      simp only [run, before, placeResidue, putResidue, bind_assoc]
      refine bind_congr fun node => bind_congr fun sim => bind_congr fun task =>
        bind_congr fun most => ?_
      obtain ⟨batch, rate⟩ := most
      refine bind_congr fun _ => ?_
      split
      · rfl
      · simp only [bind_assoc]
        refine bind_congr fun period => bind_congr fun _ => bind_congr fun trp =>
          bind_congr fun gpu => bind_congr fun o => ?_
        cases o with
        | none => rfl
        | some t =>
            simp only [bind_assoc]
            refine bind_congr fun latency => bind_congr fun occupancy => bind_congr fun _ =>
              bind_congr fun fits => ?_
            cases fits <;> rfl

end Attempt

/-- An attempt that has put its task on the node has gone through `Placed`. -/
theorem putSaturated_placed {batch : Int} {latency trp : ℚ}
    (h : s.putSaturated a batch latency trp r = .ok (.put t, r1)) : Placed s a r r1 := by
  unfold putSaturated at h
  replace h := getTask_bind h
  obtain ⟨n, hn, h⟩ := getNode_bind h
  obtain ⟨gpu, hgpu, h⟩ := getGPU_bind h
  obtain ⟨o, ho, h⟩ := query_bind h
  cases o with
  | none => cases (pure_end h).1
  | some u =>
      obtain ⟨fits, -, h⟩ := query_bind h
      cases fits with
      | false => cases (pure_end h).1
      | true =>
          replace h := act_bind h
          obtain ⟨-, rfl⟩ := pure_end h
          exact .saturated hn hgpu ho

theorem putResidue_placed (h : s.putResidue a r = .ok (.put t, r1)) : Placed s a r r1 := by
  unfold putResidue at h
  obtain ⟨n, hn, h⟩ := getNode_bind h
  replace h := getSim_bind h
  replace h := getTask_bind h
  obtain ⟨⟨batch, rate⟩, hmax, h⟩ := query_bind h
  replace h := act_bind h
  split at h
  · cases (pure_end h).1
  · obtain ⟨period, -, h⟩ := query_bind h
    replace h := act_bind h
    obtain ⟨trp, -, h⟩ := query_bind h
    obtain ⟨gpu, hgpu, h⟩ := getGPU_bind h
    obtain ⟨o, ho, h⟩ := query_bind h
    cases o with
    | none => cases (pure_end h).1
    | some u =>
        obtain ⟨latency, -, h⟩ := query_bind h
        obtain ⟨occ, -, h⟩ := query_bind h
        replace h := act_bind h
        obtain ⟨fits, -, h⟩ := query_bind h
        cases fits with
        | false => cases (pure_end h).1
        | true =>
            replace h := act_bind h
            obtain ⟨-, rfl⟩ := pure_end h
            exact .residue hn rfl hgpu ho

theorem Attempt.before_placed {k : Attempt} (h : k.before s a r = .ok (.put t, r1)) :
    Placed s a r r1 := by
  cases k with
  | saturated batch latency trp => exact putSaturated_placed h
  | residue => exact putResidue_placed h

/-! ## What an attempt writes -/

/-- From `sim` to `sim'` only the node at `a` was rewritten, and it is still
the same node. -/
structure WroteAt (a : Addr) (sim sim' : SimState) (n n' : Node) : Prop where
  old : sim.node? a = some n
  new : sim'.node? a = some n'
  id_eq : n'.id = n.id
  key_eq : n'.key = n.key
  others : ∀ b ≠ a, sim'.node? b = sim.node? b
  memory : sim'.memory = sim.memory

theorem WroteAt.write {c : Core} {f : Node → Node} (hn : c.sim.node? a = some n)
    (hid : (f n).id = n.id) (hkey : (f n).key = n.key) :
    WroteAt a c.sim (c.write a f).sim n (f n) where
  old := hn
  new := by rw [Core.write_node?, if_pos rfl, hn, Option.map_some]
  id_eq := hid
  key_eq := hkey
  others := fun b hb => by rw [Core.write_node?, if_neg hb]
  memory := Core.write_memory c a f

theorem WroteAt.trans {sim sim' sim'' : SimState} {n' n'' : Node} (h : WroteAt a sim sim' n n')
    (h' : WroteAt a sim' sim'' n' n'') : WroteAt a sim sim'' n n'' where
  old := h.old
  new := h'.new
  id_eq := h'.id_eq.trans h.id_eq
  key_eq := h'.key_eq.trans h.key_eq
  others := fun b hb => (h'.others b hb).trans (h.others b hb)
  memory := h'.memory.trans h.memory

theorem setNode_setNode (sim : SimState) (a : Addr) (n n' : Node) :
    (sim.setNode a n).setNode a n' = sim.setNode a n' := by
  simp only [SimState.setNode, SimState.modifyGPU, List.modify_modify_eq]
  congr 1
  congr 1
  funext g
  simp

/-- `readjust` writes duty cycle and occupancy, then the task. -/
def primed (duty occupancy : ℚ) (n : Node) : Node :=
  { n with dutyCycle := some duty, occupancy }

def withTask (t : Task) (duty occupancy : ℚ) (n : Node) : Node :=
  { n with vTaskList := n.vTaskList ++ [t], dutyCycle := some duty, occupancy }

/-- An attempt has written its own node only, and its GPU is within the
bandwidth limit. -/
theorem Placed.wrote (hhome : ∀ {b m}, r.cur.sim.node? b = some m → m.id = b.gpu)
    (h : Placed s a r r1) :
    ∃ n n', WroteAt a r.cur.sim r1.cur.sim n n' ∧
      ∀ g, r1.cur.sim.vGPUList[n'.id]? = some g → s.checkNetBW = true →
        s.isBandwidthOK g = true := by
  cases h with
  | @saturated n gpu t batch latency trp hn hgpu hlimit =>
      refine ⟨n, _, WroteAt.write (c := r.cur) hn rfl rfl, fun g hg hbw => ?_⟩
      have hid : n.id = a.gpu := hhome hn
      simp only [did, Prog.after_cur, Action.apply, Core.write_of_node hn] at hg
      rw [hid] at hgpu hg
      exact place_withinBandwidth hn hgpu hlimit hbw rfl hg
  | @residue r' n gpu t batch rate duty occ trp hn hr' hgpu hlimit =>
      have hid : n.id = a.gpu := hhome hn
      have h1 : WroteAt a r.cur.sim r'.cur.sim n (primed duty n.occupancy n) := by
        rw [hr']
        exact WroteAt.write (c := r.cur.setRate rate) (f := primed duty n.occupancy) hn rfl rfl
      have h2 : WroteAt a r'.cur.sim (r'.cur.write a (primed duty occ)).sim _
          (primed duty occ (primed duty n.occupancy n)) :=
        WroteAt.write h1.new rfl rfl
      have h3 : WroteAt a (r'.cur.write a (primed duty occ)).sim
          ((r'.cur.write a (primed duty occ)).write a (withTask t duty occ)).sim _
          (withTask t duty occ (primed duty occ (primed duty n.occupancy n))) :=
        WroteAt.write h2.new rfl rfl
      refine ⟨n, _, (h1.trans h2).trans h3, fun g hg hbw => ?_⟩
      have hsim : ((r'.cur.write a (primed duty occ)).write a (withTask t duty occ)).sim =
          r'.cur.sim.setNode a (withTask t duty occ (primed duty occ (primed duty n.occupancy n))) := by
        rw [Core.write_of_node h2.new, Core.write_of_node h1.new]
        exact setNode_setNode ..
      rw [hid] at hgpu
      have hg' : (r'.cur.sim.setNode a (withTask t duty occ (primed duty occ
          (primed duty n.occupancy n)))).vGPUList[a.gpu]? = some g := by
        rw [← hsim, ← hid]
        exact hg
      exact place_withinBandwidth h1.new hgpu hlimit hbw rfl hg'

/-- `sim'` differs from `sim` in the node at `a` alone, which is empty, and
uses the same memory. -/
structure NoTrace (a : Addr) (sim sim' : SimState) : Prop where
  emptied : ∃ n, sim'.node? a = some n ∧ n.vTaskList = [] ∧ n.occupancy = 0
  others : ∀ b ≠ a, sim'.node? b = sim.node? b
  memory : sim'.vGPUList.map (·.usedMemory) = sim.vGPUList.map (·.usedMemory)

theorem mem_gpuAddrs {sim : SimState} {i : Nat} {b : Addr} :
    b ∈ gpuAddrs sim i ↔ b.gpu = i ∧ ∃ n, sim.node? b = some n := by
  unfold gpuAddrs
  cases hg : sim.vGPUList[i]? with
  | none =>
      simp only [List.not_mem_nil, false_iff, not_and, not_exists]
      rintro rfl n hn
      obtain ⟨g, hg', -⟩ := SimState.gpu_of_node? hn
      rw [hg] at hg'
      cases hg'
  | some g =>
      simp only [List.mem_map, List.mem_range]
      constructor
      · rintro ⟨j, hj, rfl⟩
        exact ⟨rfl, _, SimState.node?_of_gpu hg (List.getElem?_eq_getElem hj)⟩
      · rintro ⟨rfl, n, hn⟩
        obtain ⟨g', hg', hj⟩ := SimState.gpu_of_node? hn
        obtain rfl : g = g' := Option.some.inj (hg.symm.trans hg')
        exact ⟨b.node, (List.getElem?_eq_some_iff.mp hj).1, rfl⟩

theorem gpuAddrs_nodup (sim : SimState) (i : Nat) : (gpuAddrs sim i).Nodup := by
  unfold gpuAddrs
  split
  · exact List.nodup_range.map fun j k h => congrArg Addr.node h
  · exact List.nodup_nil

/-- The only other place a node can be on the GPU. -/
def otherPlace (a : Addr) : Addr := ⟨a.gpu, if a.node = 0 then 1 else 0⟩

theorem otherPlace_ne (a : Addr) : otherPlace a ≠ a := by
  intro h
  have hnode := congrArg Addr.node h
  simp only [otherPlace] at hnode
  split at hnode <;> omega

theorem eq_of_ne_otherPlace {b : Addr} (hgpu : b.gpu = a.gpu) (hb : b.node < 2) (ha : a.node < 2)
    (hne : b ≠ otherPlace a) : b = a := by
  obtain ⟨bg, bn⟩ := b
  obtain ⟨ag, an⟩ := a
  obtain rfl : bg = ag := hgpu
  simp only [otherPlace, ne_eq, Addr.mk.injEq, true_and] at hne hb ha ⊢
  split at hne <;> omega

theorem ShapedGPU.node_lt {sim : SimState} (h : AllGPUs ShapedGPU sim) {b : Addr}
    (hn : sim.node? b = some n) : b.node < 2 := by
  obtain ⟨g, hg, hj⟩ := SimState.gpu_of_node? hn
  have hlt := (List.getElem?_eq_some_iff.mp hj).1
  have hlen := (h _ g hg).split.length
  rw [List.length_map] at hlen
  omega

/-- `checkNeedtoRevert` asks for a revert without having written anything. -/
theorem checkNeedtoRevert_reverts {n' : Node} (hnew : r1.cur.sim.node? a = some n')
    (hid : n'.id = a.gpu)
    (hlt : ∀ b m, r1.cur.sim.node? b = some m → b.node < 2)
    (hband : ∀ g, r1.cur.sim.vGPUList[n'.id]? = some g → s.checkNetBW = true →
      s.isBandwidthOK g = true)
    (h : s.checkNeedtoRevert a r1 = .ok (true, r2)) : r2.cur.sim = r1.cur.sim := by
  unfold checkNeedtoRevert at h
  obtain ⟨m, hm, h⟩ := getNode_bind h
  obtain rfl : n' = m := Option.some.inj (hnew.symm.trans hm)
  obtain ⟨gpu, hgpu, h⟩ := getGPU_bind h
  have hok : (s.checkNetBW && s.isNLCInitated && !s.isBandwidthOK gpu) = false := by
    cases hbw : s.checkNetBW with
    | false => rfl
    | true => simp [hband gpu hgpu hbw]
  dsimp only at h
  rw [hok] at h
  replace h := act_bind h
  split at h
  case isFalse => cases (pure_end h).1
  case isTrue =>
    replace h := getSim_bind h
    obtain ⟨revert, r3, hloop, h⟩ := Prog.bind_ok h
    cases revert with
    | false =>
        replace h := act_bind h
        cases (pure_end h).1
    | true =>
        obtain ⟨-, rfl⟩ := pure_end h
        have hone : ∀ b ∈ gpuAddrs r1.cur.sim n'.id, b ≠ otherPlace a → b = a := by
          intro b hb hne
          obtain ⟨hgpu', k, hk⟩ := mem_gpuAddrs.mp hb
          exact eq_of_ne_otherPlace (hgpu'.trans hid) (hlt b k hk) (hlt a n' hnew) hne
        rw [adjustOtherNodes_reverts (r := s.did (.bandwidthOK a) r1) (gpuAddrs_nodup _ _)
          (otherPlace_ne a) hone hnew rfl hloop]
        rfl

/-- When `checkNeedtoRevert` says so the attempt leaves no trace. -/
theorem Placed.noTrace {remaining : Int → ℚ → Int} {u : Unit}
    (hshaped : AllGPUs ShapedGPU r.cur.sim) (hplaced : Placed s a r r1)
    (hrevert : s.checkNeedtoRevert a r1 = .ok (true, r2))
    (hrun : s.settle a t remaining r1 = .ok (u, r3)) : NoTrace a r.cur.sim r3.cur.sim := by
  have hhome : ∀ {b m}, r.cur.sim.node? b = some m → m.id = b.gpu := by
    intro b m hm
    obtain ⟨g, hg, hj⟩ := SimState.gpu_of_node? hm
    exact (hshaped _ g hg).id_eq m (List.mem_of_getElem? hj)
  obtain ⟨n, n', hw, hband⟩ := hplaced.wrote hhome
  have hlt : ∀ b m, r1.cur.sim.node? b = some m → b.node < 2 := by
    intro b m hm
    by_cases hb : b = a
    · rw [hb]
      exact ShapedGPU.node_lt hshaped hw.old
    · rw [hw.others b hb] at hm
      exact ShapedGPU.node_lt hshaped hm
  have hsame := checkNeedtoRevert_reverts hw.new (hw.id_eq.trans (hhome hw.old)) hlt hband hrevert
  unfold settle at hrun
  obtain ⟨revert, r2', hcheck, hrun⟩ := Prog.bind_ok hrun
  obtain ⟨rfl, rfl⟩ := Prod.mk.injEq .. |>.mp (Except.ok.inj (hrevert.symm.trans hcheck))
  obtain ⟨m, hm, hrun⟩ := getNode_bind hrun
  obtain ⟨-, -, hrun⟩ := query_bind hrun
  obtain rfl := act_end hrun
  have hlast := WroteAt.write (c := r2.cur) (f := fun n =>
    { n with vTaskList := [], dutyCycle := some 0, occupancy := 0 }) hm rfl rfl
  refine ⟨⟨_, hlast.new, rfl, rfl⟩, fun b hb => ?_, ?_⟩
  · calc (s.did (.revert a) r2).cur.sim.node? b = r2.cur.sim.node? b := hlast.others b hb
      _ = r1.cur.sim.node? b := by rw [hsame]
      _ = r.cur.sim.node? b := hw.others b hb
  · have hmem : (s.did (.revert a) r2).cur.sim.memory = r.cur.sim.memory :=
      (hlast.memory.trans (congrArg SimState.memory hsame)).trans hw.memory
    have hused := congrArg (List.map Prod.fst) hmem
    rw [SimState.memory, SimState.memory, List.map_map, List.map_map] at hused
    exact hused

/-- An attempt whose task is on the node when `checkNeedtoRevert` says to revert
it leaves no trace: its own node is empty again and no other node and no memory
has changed. -/
theorem reverted_leaves_no_trace {k : Attempt} {o : Option Unit}
    (hshaped : AllGPUs ShapedGPU r.cur.sim) (hput : k.before s a r = .ok (.put t, r1))
    (hrevert : s.checkNeedtoRevert a r1 = .ok (true, r2))
    (hrun : k.run s a r = .ok (o, r3)) : NoTrace a r.cur.sim r3.cur.sim := by
  rw [k.run_eq, Prog.bind_of_ok hput] at hrun
  obtain ⟨⟨⟩, r3', hsettle, hend⟩ := Prog.bind_ok hrun
  obtain ⟨-, rfl⟩ := pure_end hend
  exact (Attempt.before_placed hput).noTrace hshaped hrevert hsettle

theorem halves_shaped : AllGPUs ShapedGPU halves := by
  intro i g hg
  match i, hg with
  | 0, hg =>
      obtain rfl := Option.some.inj hg
      exact ⟨rfl, by decide, .parts (by decide) (by decide), by decide⟩
  | i + 1, hg => cases hg

/-- The attempt of model 0, at 40 requests a second, on the empty half. -/
def crowding : Rec Core Action := ⟨{ Core.init halves with task := request 0 40 100 }, []⟩

/-- Model 0 is put beside model 1, which then takes five times as long and
cannot be adjusted: `checkNeedtoRevert` says to revert, and the empty half stays
empty. -/
theorem reverted_leaves_no_trace_at :
    ∃ t r1 r2 o r3,
      Attempt.before (disturbing 30 5) ⟨0, 1⟩ (.saturated 1 25 40) crowding = .ok (.put t, r1) ∧
      (disturbing 30 5).checkNeedtoRevert ⟨0, 1⟩ r1 = .ok (true, r2) ∧
      Attempt.run (disturbing 30 5) ⟨0, 1⟩ (.saturated 1 25 40) crowding = .ok (o, r3) ∧
      r3.log.length = 3 ∧ NoTrace ⟨0, 1⟩ halves r3.cur.sim := by
  obtain ⟨⟨⟨put, revert⟩, r2⟩, hcheck, hp⟩ := Query.of_returns
    (p := fun x => x.1.1.onNode && x.1.2)
    (q := (do
      let put ← Attempt.before (disturbing 30 5) ⟨0, 1⟩ (.saturated 1 25 40)
      let revert ← (disturbing 30 5).checkNeedtoRevert ⟨0, 1⟩
      pure (put, revert) : Sched (Put × Bool)) crowding) (by decide +kernel)
  obtain ⟨⟨o, r3⟩, hrun, hlog⟩ := Query.of_returns (p := fun x => decide (x.2.log.length = 3))
    (q := Attempt.run (disturbing 30 5) ⟨0, 1⟩ (.saturated 1 25 40) crowding) (by decide +kernel)
  obtain ⟨put', r1, hput, hcheck⟩ := Prog.bind_ok hcheck
  obtain ⟨revert', r2', hrevert, hend⟩ := Prog.bind_ok hcheck
  obtain ⟨⟨rfl, rfl⟩, rfl⟩ := pure_end hend
  obtain ⟨honNode, rfl⟩ := Bool.and_eq_true_iff.mp hp
  cases put with
  | noBandwidth => cases honNode
  | noMemory => cases honNode
  | put t =>
      exact ⟨t, r1, _, o, r3, hput, hrevert, hrun, of_decide_eq_true hlog,
        reverted_leaves_no_trace halves_shaped hput hrevert hrun⟩

end Scheduler

end Glet
