import Glet.Effects

/-!
# Network bandwidth

`readjust` cuts a gpu-let to the bandwidth its GPU has left and tests the GPU
again after placing it. `allocateFit`, `mergeResidue`, `allocateTimeShare` and
the interference adjustments change throughputs on the same GPUs and make no
such test; `withinBandwidth` is the test they leave out.

The invariant (`Limited`) counts what every GPU has to carry, less the gpu-let
that `readjust` has placed and not tested yet: that one is taken back if the
test fails. Taking entries away lowers the load since throughputs are not
negative (`Sound`).
-/

namespace Glet

open Recorder

/-- A CHECK_NETBW build in which `setupNetworkChecker` succeeded. -/
structure NetworkReady (s : Scheduler) : Prop where
  checked : s.checkNetBW = true
  initiated : s.isNLCInitated = true
  bytes_nonneg : ∀ id, 0 ≤ s.taskIDtoRequiredBytesPerRequest id

variable {s : Scheduler} {c : Core} {act : Action} {a : Addr} {f : Node → Node} {n : Node}
  {i : Nat}

/-! ## Bandwidth of nodes and GPUs -/

namespace Scheduler

/-- Bandwidth the tasks of a node need, in gbits. -/
def nodeGbits (s : Scheduler) (n : Node) : ℚ := s.requiredBytes n.vTaskList * 8 / 1024 / 1024 / 1024

/-- The same, for a node of GPU `i`; the other nodes count nothing. -/
def gbitsOn (s : Scheduler) (i : Nat) (n : Node) : ℚ := if n.id = i then s.nodeGbits n else 0

theorem requiredBytes_append (ts us : List Task) :
    s.requiredBytes (ts ++ us) = s.requiredBytes ts + s.requiredBytes us := by
  simp only [requiredBytes, List.map_append, List.sum_append]

theorem getRequiredBandwidth_eq (g : GPU) : s.getRequiredBandwidth g = g.total s.nodeGbits := by
  obtain ⟨id, total, used, type, parts, nodes⟩ := g
  simp only [getRequiredBandwidth, GPU.total]
  induction nodes with
  | nil => simp [requiredBytes]
  | cons n ns ih =>
      rw [List.flatMap_cons, requiredBytes_append, List.map_cons, List.sum_cons, ← ih, nodeGbits]
      ring

theorem gbitsOn_empty {n : Node} (h : n.vTaskList = []) : s.gbitsOn i n = 0 := by
  simp [gbitsOn, nodeGbits, requiredBytes, h]

theorem requiredBytes_nonneg (hready : NetworkReady s) {ts : List Task}
    (h : ∀ t ∈ ts, 0 ≤ t.throughput) : 0 ≤ s.requiredBytes ts := by
  refine List.sum_nonneg fun x hx => ?_
  obtain ⟨t, ht, rfl⟩ := List.mem_map.mp hx
  have hbytes : (0 : ℚ) ≤ s.taskIDtoRequiredBytesPerRequest t.id := by
    exact_mod_cast hready.bytes_nonneg t.id
  exact mul_nonneg (h t ht) hbytes

theorem gbitsOn_nonneg (hready : NetworkReady s) (h : ∀ t ∈ n.vTaskList, 0 ≤ t.throughput) :
    0 ≤ s.gbitsOn i n := by
  have hbytes := requiredBytes_nonneg hready h
  unfold gbitsOn nodeGbits
  split
  · positivity
  · exact le_rfl

/-- Without some of its tasks a node needs less. -/
theorem requiredBytes_eraseP (hready : NetworkReady s) {ts : List Task} {p : Task → Bool}
    (h : ∀ t ∈ ts, 0 ≤ t.throughput) : s.requiredBytes (ts.eraseP p) ≤ s.requiredBytes ts := by
  induction ts with
  | nil => exact le_rfl
  | cons t ts ih =>
      have hhead : s.requiredBytes (t :: ts) = s.requiredBytes [t] + s.requiredBytes ts :=
        requiredBytes_append [t] ts
      have hone : 0 ≤ s.requiredBytes [t] := requiredBytes_nonneg hready fun u hu => by
        rw [List.mem_singleton.mp hu]
        exact h t (List.mem_cons_self ..)
      cases hp : p t with
      | true =>
          rw [List.eraseP_cons_of_pos hp, hhead]
          linarith
      | false =>
          have hrest : s.requiredBytes (t :: ts.eraseP p) =
              s.requiredBytes [t] + s.requiredBytes (ts.eraseP p) :=
            requiredBytes_append [t] (ts.eraseP p)
          have hle := ih fun u hu => h u (List.mem_cons_of_mem _ hu)
          rw [List.eraseP_cons_of_neg (by simp [hp]), hhead, hrest]
          linarith

theorem nodeGbits_le {m : Node} (h : s.requiredBytes m.vTaskList ≤ s.requiredBytes n.vTaskList) :
    s.nodeGbits m ≤ s.nodeGbits n := by
  unfold nodeGbits
  gcongr

end Scheduler

/-! ## Throughputs are not negative -/

open Scheduler (Sound)

theorem Scheduler.Sound.throughput_nonneg (h : Sound n) : ∀ t ∈ n.vTaskList, 0 ≤ t.throughput := by
  rcases h with hnil | ⟨-, -, -, hthr⟩
  · intro t ht
    rw [hnil] at ht
    cases ht
  · exact hthr

theorem Scheduler.Sound.single {t : Task} {d : ℚ} (htasks : n.vTaskList = [t]) (hduty : n.dutyCycle = some d)
    (hpos : 0 ≤ t.throughput ∧ 0 < d) : Sound n := by
  refine Or.inr ⟨d, hduty, hpos.2, fun u hu => ?_⟩
  rw [htasks] at hu
  rw [List.mem_singleton.mp hu]
  exact hpos.1

theorem retime_throughput_nonneg {duty : Int} {t : Task} (hd : 1 ≤ duty)
    (hb : 1 ≤ sharedBatch duty t) : 0 ≤ (retime duty t).throughput := by
  have hbatch : 0 ≤ min (sharedBatch duty t) maxBatch := le_min (by omega) (by decide)
  have hq : (0 : ℚ) ≤ (min (sharedBatch duty t) maxBatch : Int) := by exact_mod_cast hbatch
  have hdq : (0 : ℚ) ≤ duty := by exact_mod_cast (by omega : 0 ≤ duty)
  simp only [retime]
  positivity

theorem Scheduler.Sound.writes (hpos : PositiveLatency s) (hd : Detail s c act)
    (hmerged : ∀ {b t duty occ left}, act = .merged b t duty occ left → 0 < t.requestRate)
    (hw : act.writes s.useRepartition c = some (a, f)) (hn : c.sim.node? a = some n)
    (h : Sound n) : Sound (f n) := by
  cases act <;> simp only [Action.writes, Option.some.injEq, Prod.mk.injEq, reduceCtorEq] at hw
  all_goals obtain ⟨rfl, rfl⟩ := hw
  case forget b =>
      rcases h with hnil | ⟨d, hduty, hd0, hthr⟩
      · exact Or.inl (by simp [hnil])
      · exact Or.inr ⟨d, hduty, hd0, fun t ht => hthr t (List.mem_of_mem_eraseP ht)⟩
  case occupy => exact h
  case fit b org checked =>
      obtain ⟨m, gpu, e, d, v, -, -, -, -, hlet, -⟩ := hd.target
      exact .single (n := copyToNode org n s.useRepartition) hlet.tasks hlet.duty
        (hlet.positive hpos)
  case prime b duty occ =>
      obtain ⟨m, hm, hnil⟩ := hd
      obtain rfl : n = m := Option.some.inj (hn.symm.trans hm)
      exact Or.inl hnil
  case place b kind t duty occ =>
      obtain ⟨m, k, v, hm, hnil, -⟩ := hd.target
      obtain rfl : n = m := Option.some.inj (hn.symm.trans hm)
      exact .single (t := t) (d := duty) (by simp [hnil]) rfl (hd.positive hpos)
  case revert => exact Or.inl rfl
  case adjust b n' =>
      obtain ⟨-, m, hm, hadj⟩ := hd
      obtain rfl : n = m := Option.some.inj (hn.symm.trans hm)
      exact hadj.sound hpos h
  case wipe => exact Or.inl rfl
  case merged b t duty occ left =>
      obtain ⟨m, v, hm, hnil, -⟩ := hd.target
      obtain rfl : n = m := Option.some.inj (hn.symm.trans hm)
      have hrate : (0 : ℚ) < t.requestRate := by exact_mod_cast hmerged rfl
      have hbatch : (0 : ℚ) < t.batchSize := by
        exact_mod_cast lt_of_lt_of_le zero_lt_one hd.batch_pos
      refine .single (t := t) (d := duty) (by simp [hnil]) rfl ⟨?_, ?_⟩
      · rw [hd.throughput_eq]
        exact hrate.le
      · rw [hd.duty_eq]
        positivity
  case share b t duty occ left =>
      obtain ⟨m, latency, others, hm, hshares⟩ := hd.target
      obtain rfl : n = m := Option.some.inj (hn.symm.trans hm)
      have hduty : (0 : ℚ) < duty := by
        exact_mod_cast lt_of_lt_of_le zero_lt_one hd.duty_pos
      have hbatch : (0 : ℚ) ≤ t.batchSize := by
        exact_mod_cast le_trans zero_le_one hd.batch_pos
      refine Or.inr ⟨duty, rfl, hduty, fun u hu => ?_⟩
      rcases List.mem_append.mp hu with hu | hu
      · obtain ⟨u0, hu0, rfl⟩ := List.mem_map.mp hu
        exact retime_throughput_nonneg hd.duty_pos
          (Scheduler.sharedLatency_batch hshares.others_ok u0 hu0)
      · rw [List.mem_singleton.mp hu, hd.new_eq]
        simp only [Scheduler.createNewTask]
        positivity

/-! ## The load of a GPU -/

/-- What GPU `i` has to carry, less a gpu-let that is not tested yet. -/
def Core.load (c : Core) (s : Scheduler) (i : Nat) : ℚ :=
  c.sim.totalBut (s.gbitsOn i) c.unchecked

/-- Every GPU carries at most `_LIMIT_GBITS`. -/
def Limited (s : Scheduler) (c : Core) : Prop := ∀ i, c.load s i ≤ limitGbits

theorem Core.load_settled (h : c.unchecked = none) : c.load s i = c.sim.total (s.gbitsOn i) := by
  rw [load, h, SimState.totalBut_none]

/-- A step that rewrites a node: it lowers the node's bandwidth, or the GPU has
room for the difference. -/
theorem Limited.of_writes (h : Limited s c) (hhome : Homed c.sim) (hd : Detail s c act)
    (hw : act.writes s.useRepartition c = some (a, f)) (hn : c.sim.node? a = some n)
    (hun : (act.apply s.useRepartition c).unchecked = c.unchecked)
    (hroom : s.nodeGbits (f n) ≤ s.nodeGbits n ∨
      c.load s a.gpu + (s.nodeGbits (f n) - s.nodeGbits n) ≤ limitGbits) :
    Limited s (act.apply s.useRepartition c) := by
  intro i
  have hold : c.sim.totalBut (s.gbitsOn i) c.unchecked ≤ limitGbits := h i
  have hgid := hhome.node_id hn
  rw [Core.load, hun, totalBut_writes s.useRepartition act hw hn]
  split
  · exact hold
  · simp only [Scheduler.gbitsOn, (hd.writes_id hw hn).1]
    split
    case isTrue hi =>
      rw [← hi, hgid] at hold ⊢
      rcases hroom with hle | hle
      · linarith
      · exact hle
    case isFalse => linarith

/-- A step that rewrites nothing leaves the load as it is. -/
theorem Limited.of_quiet (h : Limited s c) (hd : Detail s c act)
    (hw : act.writes s.useRepartition c = none)
    (hun : (act.apply s.useRepartition c).unchecked = c.unchecked) :
    Limited s (act.apply s.useRepartition c) := by
  intro i
  rw [Core.load, hun, totalBut_apply (fun _ => Scheduler.gbitsOn_empty) hd hw]
  exact h i

/-! ## Steps that are not tested -/

/-- The GPU of a node has room for what a rewriting adds. -/
def Core.hasRoom (c : Core) (s : Scheduler) (a : Addr) (f : Node → Node) : Bool :=
  (c.sim.node? a).all fun n =>
    decide (c.load s a.gpu + (s.nodeGbits (f n) - s.nodeGbits n) ≤ limitGbits)

/-- The bandwidth test that `allocateFit`, `mergeResidue`, `allocateTimeShare`
and the interference adjustments do not make; and a merged gpu-let serves a
positive rate. -/
def withinBandwidth (s : Scheduler) (c : Core) (act : Action) : Bool :=
  let fits := (act.writes s.useRepartition c).all fun p => c.hasRoom s p.1 p.2
  match act with
  | .fit .. | .share .. | .adjust .. => fits
  | .merged _ t _ _ _ => decide (0 < t.requestRate) && fits
  | _ => true

theorem Core.room_le (h : c.hasRoom s a f = true) (hn : c.sim.node? a = some n) :
    c.load s a.gpu + (s.nodeGbits (f n) - s.nodeGbits n) ≤ limitGbits := by
  rw [hasRoom, hn] at h
  exact of_decide_eq_true h

/-- Steps that may add to a GPU's load without a test. -/
def Action.isUntested : Action → Bool
  | fit .. | share .. | adjust .. | merged .. => true
  | _ => false

theorem withinBandwidth_room (h : withinBandwidth s c act = true) (hact : act.isUntested = true)
    (hw : act.writes s.useRepartition c = some (a, f)) : c.hasRoom s a f = true := by
  cases act <;> try cases hact
  all_goals simp only [withinBandwidth, hw, Option.all_some, Bool.and_eq_true] at h
  case merged => exact h.2
  all_goals exact h

theorem withinBandwidth_merged {t : Task} {duty occ : ℚ} {left : Int}
    (h : withinBandwidth s c (.merged a t duty occ left) = true) : 0 < t.requestRate :=
  of_decide_eq_true (Bool.and_eq_true_iff.mp h).1

/-- The new gpu-let of `readjust` does not count until it is tested. -/
theorem Limited.place {kind : Kind} {t : Task} {duty occ : ℚ} (h : Limited s c)
    (hd : Detail s c (.place a kind t duty occ)) :
    Limited s ((Action.place a kind t duty occ).apply s.useRepartition c) := by
  obtain ⟨n, k, v, hn, hnil, -⟩ := hd.target
  intro i
  have hold := h i
  rw [Core.load_settled hd.unchecked] at hold
  have hload : ((Action.place a kind t duty occ).apply s.useRepartition c).load s i =
      c.sim.totalBut (s.gbitsOn i) (some a) := by
    have hafter := totalBut_writes (F := s.gbitsOn i) s.useRepartition
      (.place a kind t duty occ) rfl hn (some a)
    rw [if_pos rfl] at hafter
    exact hafter
  rw [hload, SimState.totalBut_some hn, Scheduler.gbitsOn_empty hnil]
  linarith

/-- Taking it back leaves the load as it was, or lower if it was tested. -/
theorem Limited.revert (hready : NetworkReady s) (h : Limited s c)
    (hd : Detail s c (.revert a)) (hn : c.sim.node? a = some n) (hsound : Sound n) :
    Limited s ((Action.revert a).apply s.useRepartition c) := by
  intro i
  have hold := h i
  have htotal := SimState.total_writes (F := s.gbitsOn i) s.useRepartition (.revert a) rfl hn
  rw [Core.load_settled rfl, htotal, Scheduler.gbitsOn_empty rfl]
  rcases hd.2.1 with hun | hun
  · have hnn : 0 ≤ s.gbitsOn i n := Scheduler.gbitsOn_nonneg hready hsound.throughput_nonneg
    rw [Core.load_settled hun] at hold
    linarith
  · rw [Core.load, hun, SimState.totalBut_some hn] at hold
    linarith

theorem Limited.writes (hready : NetworkReady s) (h : Limited s c) (hhome : Homed c.sim)
    (hsound : Sound n) (hd : Detail s c act) (hok : withinBandwidth s c act = true)
    (hw : act.writes s.useRepartition c = some (a, f)) (hn : c.sim.node? a = some n) :
    Limited s (act.apply s.useRepartition c) := by
  have hthr := hsound.throughput_nonneg
  have hnone : s.requiredBytes [] ≤ s.requiredBytes n.vTaskList :=
    Scheduler.requiredBytes_nonneg hready hthr
  have hroom : act.isUntested = true →
      c.load s a.gpu + (s.nodeGbits (f n) - s.nodeGbits n) ≤ limitGbits := fun hact =>
    Core.room_le (withinBandwidth_room hok hact hw) hn
  cases act <;> simp only [Action.writes, Option.some.injEq, Prod.mk.injEq, reduceCtorEq] at hw
  all_goals obtain ⟨rfl, rfl⟩ := hw
  case forget b =>
      refine h.of_writes hhome hd rfl hn (by simp [Action.apply]) (Or.inl ?_)
      exact Scheduler.nodeGbits_le (Scheduler.requiredBytes_eraseP hready hthr)
  case occupy | prime =>
      exact h.of_writes hhome hd rfl hn (by simp [Action.apply]) (Or.inl le_rfl)
  case wipe b used =>
      refine h.of_writes hhome hd rfl hn (by simp [Action.apply]) (Or.inl ?_)
      exact Scheduler.nodeGbits_le hnone
  case fit | share | adjust | merged =>
      exact h.of_writes hhome hd rfl hn (by simp [Action.apply, Core.setRate]) (Or.inr (hroom rfl))
  case place => exact h.place hd
  case revert => exact h.revert hready hd hn hsound

/-- `readjust`'s own test: the GPU carries its load with the new gpu-let. -/
theorem Limited.bandwidthOK (hready : NetworkReady s) (h : Limited s c) (hhome : Homed c.sim)
    (hd : Detail s c (.bandwidthOK a)) :
    Limited s ((Action.bandwidthOK a).apply s.useRepartition c) := by
  obtain ⟨hun, n, gpu, hn, hgpu, htest⟩ := hd
  have hlimit : s.getRequiredBandwidth gpu ≤ limitGbits :=
    of_decide_eq_true (htest hready.checked hready.initiated)
  intro i
  have hload : ((Action.bandwidthOK a).apply s.useRepartition c).load s i =
      c.sim.total (s.gbitsOn i) := Core.load_settled rfl
  rw [hload]
  by_cases hi : n.id = i
  · rw [Scheduler.getRequiredBandwidth_eq, hhome.total_gpu _ hgpu] at hlimit
    rw [← hi]
    exact hlimit
  · have hold := h i
    have hzero : s.gbitsOn i n = 0 := by simp [Scheduler.gbitsOn, hi]
    rw [Core.load, hun, SimState.totalBut_some hn, hzero] at hold
    linarith

theorem Limited.apply (hready : NetworkReady s) (h : Limited s c) (hhome : Homed c.sim)
    (hsound : Every Sound c.sim) (hd : Detail s c act) (hok : withinBandwidth s c act = true) :
    Limited s (act.apply s.useRepartition c) := by
  cases hw : act.writes s.useRepartition c with
  | some p =>
      obtain ⟨a, f⟩ := p
      obtain ⟨n, hn⟩ := hd.written hw
      exact h.writes hready hhome (hsound a n hn) hd hok hw hn
  | none =>
      cases act <;> simp only [Action.writes, reduceCtorEq] at hw
      case bandwidthOK => exact h.bandwidthOK hready hhome hd
      case accept => exact h.of_quiet hd rfl hd.2.1.symm
      case split =>
          refine h.of_quiet hd rfl ?_
          simp only [Action.apply]
          split <;> rfl
      all_goals exact h.of_quiet hd rfl (by simp [Action.apply, Core.setRate])

/-! ## Runs -/

/-- What the steps of a run keep. -/
structure Carried (s : Scheduler) (c : Core) : Prop where
  homed : Homed c.sim
  sound : Every Sound c.sim
  limited : Limited s c

theorem Carried.init {sim : SimState} (h : Fresh s sim) : Carried s (Core.init sim) where
  homed := h.homed
  sound := h.every fun _ => Or.inl
  limited := by
    intro i
    have hzero : sim.total (s.gbitsOn i) = 0 := h.total fun _ => Scheduler.gbitsOn_empty
    have hload : (Core.init sim).load s i = sim.total (s.gbitsOn i) := Core.load_settled rfl
    rw [hload, hzero]
    norm_num [limitGbits]

theorem Carried.apply (hready : NetworkReady s) (hpos : PositiveLatency s) (h : Carried s c)
    (hd : Detail s c act) (hok : withinBandwidth s c act = true) :
    Carried s (act.apply s.useRepartition c) where
  homed := h.homed.apply hd
  sound := by
    refine h.sound.apply (fun _ => Or.inl) hd fun a f n hw hn hsound => ?_
    refine hsound.writes hpos hd ?_ hw hn
    rintro b t duty occ left rfl
    exact withinBandwidth_merged hok
  limited := h.limited.apply hready h.homed h.sound hd hok

theorem Scheduler.getRequiredBandwidth_copy (g : GPU) :
    s.getRequiredBandwidth (copyGPU s g) = s.getRequiredBandwidth g := by
  have hnode : ∀ n : Node, s.nodeGbits (SimState.copyNode s.uninit.additionalRate n) = s.nodeGbits n := by
    intro n
    simp only [nodeGbits, requiredBytes, SimState.copyNode, List.map_map, Function.comp_def]
  rw [getRequiredBandwidth_eq, getRequiredBandwidth_eq]
  simp only [GPU.total, copyGPU, List.map_map]
  exact congrArg List.sum (List.map_congr_left fun n _ => hnode n)

/-- **Network limit.** A successful run on a fresh decision keeps every GPU
within `_LIMIT_GBITS`, provided that the steps that make no bandwidth test
would have passed one. -/
theorem bandwidth_limited {table : SatTable} {tasks : List Task} {prev out : SimState}
    {repart : Bool} {o : Outcome} (hready : NetworkReady s) (hpos : PositiveLatency s)
    (htab : Built s table) (hfresh : Fresh s prev)
    (h : s.runScheduling table tasks prev out repart = .ok o) (hret : o.ret = .success)
    (hok : ∀ p ∈ o.log, withinBandwidth (s.withRepart repart) p.1 p.2 = true) :
    s.isBandwidthOKAll o.out = true := by
  obtain ⟨-, r', hruns, hlog, -, hout, -, hset⟩ := Scheduler.runScheduling_ok htab h
  have hinit : Carried s (Core.init prev) := .init hfresh
  have hcarried : Carried (s.withRepart repart) r'.cur := by
    refine hruns.invariant (I := Carried (s.withRepart repart))
      (C := fun c act => withinBandwidth (s.withRepart repart) c act = true) ?_
      (fun p hp => hok p (hlog ▸ hp)) ⟨hinit.homed, hinit.sound, hinit.limited⟩
    intro c act hc hg hC
    exact hc.apply ⟨hready.checked, hready.initiated, hready.bytes_nonneg⟩
      ⟨hpos.latency, hpos.overhead_224, hpos.overhead_300⟩ hg.1.1 hC
  rw [hout hret]
  refine List.all_eq_true.mpr fun g hg => decide_eq_true ?_
  obtain ⟨g0, hg0, rfl⟩ := List.mem_map.mp hg
  obtain ⟨i, hi⟩ := List.getElem?_of_mem hg0
  rw [Scheduler.getRequiredBandwidth_copy, Scheduler.getRequiredBandwidth_eq,
    hcarried.homed.total_gpu _ hi]
  have hload := hcarried.limited i
  rw [Core.load_settled hset.unchecked] at hload
  exact hload

/-- Two models that share a node, within the limit. -/
theorem bandwidth_limited_sharing :
    ∃ o, (Scheduler.plain (Scheduler.profile [100] fun _ _ => 5) [100] 1).firstRun
        [Scheduler.request 0 100 30, Scheduler.request 1 51 60] true = .ok o ∧
      o.out.nodes.map (·.vTaskList.length) = [2] ∧
      (Scheduler.plain (Scheduler.profile [100] fun _ _ => 5) [100] 1).isBandwidthOKAll
        o.out = true := by
  obtain ⟨o, hrun, ho⟩ := Query.of_returns
    (q := (Scheduler.plain (Scheduler.profile [100] fun _ _ => 5) [100] 1).firstRun
      [Scheduler.request 0 100 30, Scheduler.request 1 51 60] true)
    (p := fun o => decide (o.ret = .success ∧ o.out.nodes.map (·.vTaskList.length) = [2]) &&
      o.log.all fun p => withinBandwidth
        (Scheduler.plain (Scheduler.profile [100] fun _ _ => 5) [100] 1) p.1 p.2)
    (by decide +kernel)
  obtain ⟨hends, hok⟩ := Bool.and_eq_true_iff.mp ho
  obtain ⟨hret, hlen⟩ := of_decide_eq_true hends
  refine ⟨o, hrun, hlen, bandwidth_limited ⟨rfl, rfl, fun _ => Int.natCast_nonneg 3136⟩
    (Scheduler.plain_positive (by norm_num)) .empty (Scheduler.setUp_fresh rfl) hrun hret ?_⟩
  exact List.all_eq_true.mp hok

/-- One model of 602112 bytes per request (3 x 224 x 224 floats) at 1000
requests per second, all on one gpu-let of `allocateFit`. -/
theorem fit_exceeds_bandwidth :
    ∃ o, Scheduler.firstRun
        { Scheduler.plain (Scheduler.profile [100] fun _ _ => 5) [100] 1 with
          taskIDtoRequiredBytesPerRequest := fun _ => 602112 }
        [Scheduler.request 0 1000 30] true = .ok o ∧
      o.ret = .success ∧
      Scheduler.isBandwidthOKAll
        { Scheduler.plain (Scheduler.profile [100] fun _ _ => 5) [100] 1 with
          taskIDtoRequiredBytesPerRequest := fun _ => 602112 } o.out = false := by
  obtain ⟨o, hrun, ho⟩ := Query.of_returns
    (q := Scheduler.firstRun
      { Scheduler.plain (Scheduler.profile [100] fun _ _ => 5) [100] 1 with
        taskIDtoRequiredBytesPerRequest := fun _ => 602112 }
      [Scheduler.request 0 1000 30] true)
    (p := fun o => decide (o.ret = .success) && !Scheduler.isBandwidthOKAll
      { Scheduler.plain (Scheduler.profile [100] fun _ _ => 5) [100] 1 with
        taskIDtoRequiredBytesPerRequest := fun _ => 602112 } o.out)
    (by decide +kernel)
  obtain ⟨hret, hlimit⟩ := Bool.and_eq_true_iff.mp ho
  exact ⟨o, hrun, of_decide_eq_true hret, by simpa using hlimit⟩

end Glet
