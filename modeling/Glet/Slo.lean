import Glet.Effects

/-!
# Service level objectives

A node runs its tasks one after the other, once per duty cycle: a request
waits for at most a duty cycle and then for all tasks of the node. `InTime`
says that this is within the SLO of every task of the node.

`findBestFit` and `allocateTimeShare` test it before they put a task on a node.
The other placements rest on the batch size that `getMaxBatch` has found, and
go on when it has found none: with batch size 1 (`initSaturateTrp`, the
saturate loop of `readjust`), with batch size 1 and another rate (the "corner"
of `getMaxBatch`), with no partition (`getMinPart`), or with a duty cycle that
was raised to the latency (`estimateTrp`). `withinSLO` says of a placement that
it is none of these: what `getMaxBatch` would test holds.
-/

namespace Glet

open Recorder

/-! ## Latencies of a node -/

/-- A larger batch does not take less time. -/
def BatchMonotone (s : Scheduler) : Prop :=
  ∀ {type id b b' part v}, s.soloLatency type id b part = .ok v → 1 ≤ b' → b' ≤ b →
    ∃ v', s.soloLatency type id b' part = .ok v' ∧ v' ≤ v

namespace Scheduler

variable {s : Scheduler} {type : DeviceType} {part : Int}

/-- The sum of `getLatency` over tasks on a partition, with interference off. -/
def tasksLatency (s : Scheduler) (type : DeviceType) (part : Int) : List Task → Query ℚ
  | [] => .ok 0
  | t :: ts => do
      let latency ← s.soloLatency type t.id t.batchSize part
      let rest ← tasksLatency s type part ts
      return latency + rest

theorem tasksLatency_cons {t : Task} {ts : List Task} {sum : ℚ} :
    s.tasksLatency type part (t :: ts) = .ok sum ↔ ∃ v rest,
      s.soloLatency type t.id t.batchSize part = .ok v ∧
      s.tasksLatency type part ts = .ok rest ∧ sum = v + rest := by
  simp only [tasksLatency, Query.bind_ok, Query.pure_ok]
  constructor
  · rintro ⟨v, hv, rest, hrest, rfl⟩
    exact ⟨v, rest, hv, hrest, rfl⟩
  · rintro ⟨v, rest, hv, hrest, rfl⟩
    exact ⟨v, hv, rest, hrest, rfl⟩

theorem tasksLatency_single {t : Task} {v : ℚ}
    (h : s.soloLatency type t.id t.batchSize part = .ok v) :
    s.tasksLatency type part [t] = .ok v :=
  tasksLatency_cons.mpr ⟨v, 0, h, rfl, (add_zero v).symm⟩

theorem tasksLatency_append {ts us : List Task} {x y : ℚ}
    (hts : s.tasksLatency type part ts = .ok x) (hus : s.tasksLatency type part us = .ok y) :
    s.tasksLatency type part (ts ++ us) = .ok (x + y) := by
  induction ts generalizing x with
  | nil =>
      obtain rfl := Except.ok.inj hts
      simpa using hus
  | cons t ts ih =>
      obtain ⟨v, rest, hv, hrest, rfl⟩ := tasksLatency_cons.mp hts
      exact tasksLatency_cons.mpr ⟨v, rest + y, hv, ih hrest, add_assoc ..⟩

theorem tasksLatency_withRepart {repart : Bool} (ts : List Task) :
    (s.withRepart repart).tasksLatency type part ts = s.tasksLatency type part ts := by
  induction ts with
  | nil => rfl
  | cons t ts ih =>
      simp only [tasksLatency, ih]
      rfl

/-- Fewer tasks take less time. -/
theorem tasksLatency_eraseP (hpos : PositiveLatency s) {ts : List Task} {p : Task → Bool} {sum : ℚ}
    (h : s.tasksLatency type part ts = .ok sum) :
    ∃ sum', s.tasksLatency type part (ts.eraseP p) = .ok sum' ∧ sum' ≤ sum := by
  induction ts generalizing sum with
  | nil => exact ⟨sum, h, le_rfl⟩
  | cons t ts ih =>
      obtain ⟨v, rest, hv, hrest, rfl⟩ := tasksLatency_cons.mp h
      have hvpos := soloLatency_pos hpos hv
      cases hp : p t with
      | true =>
          rw [List.eraseP_cons_of_pos hp]
          exact ⟨rest, hrest, by linarith⟩
      | false =>
          rw [List.eraseP_cons_of_neg (by simp [hp])]
          obtain ⟨rest', hrest', hle⟩ := ih hrest
          exact ⟨v + rest', tasksLatency_cons.mpr ⟨v, rest', hv, hrest', rfl⟩, by linarith⟩

/-- The co-located tasks take no longer than `allocateTimeShare` reckoned: it
did not cut their batch sizes to `_MAX_BATCH` yet. -/
theorem tasksLatency_retime (hi : s.useInterference = false) (hmono : BatchMonotone s) {duty : Int}
    {node : Node} {sim : SimState} {ts : List Task} {others : ℚ}
    (h : s.sharedLatency duty node sim ts = .ok others) :
    ∃ sum, s.tasksLatency node.type node.resourcePntg (ts.map (retime duty)) = .ok sum ∧
      sum ≤ others := by
  induction ts generalizing others with
  | nil =>
      obtain rfl := Except.ok.inj h
      exact ⟨0, rfl, le_rfl⟩
  | cons t ts ih =>
      simp only [sharedLatency, Query.bind_ok, Query.pure_ok] at h
      obtain ⟨l, hl, rest, hrest, rfl⟩ := h
      obtain ⟨sum, hsum, hle⟩ := ih hrest
      have hbatch : 1 ≤ sharedBatch duty t := getLatencyOn_batch hl
      obtain ⟨v, hv, hvl⟩ := hmono (getLatencyOn_solo hi hl)
        (le_min hbatch (by decide) : 1 ≤ min (sharedBatch duty t) maxBatch) (min_le_left _ _)
      exact ⟨v + sum, tasksLatency_cons.mpr ⟨v, sum, hv, hsum, rfl⟩, by linarith⟩

end Scheduler

/-- Every task of a node is served within its SLO. -/
def InTime (s : Scheduler) (n : Node) : Prop :=
  n.vTaskList = [] ∨ ∃ d sum, n.dutyCycle = some d ∧
    s.tasksLatency n.type n.resourcePntg n.vTaskList = .ok sum ∧
    ∀ t ∈ n.vTaskList, d + sum ≤ t.SLO

variable {s : Scheduler} {c : Core} {act : Action} {a : Addr} {f : Node → Node} {n : Node}

theorem InTime.empty (h : n.vTaskList = []) : InTime s n := Or.inl h

theorem InTime.single {t : Task} {d v : ℚ} (htasks : n.vTaskList = [t])
    (hduty : n.dutyCycle = some d)
    (hv : s.soloLatency n.type t.id t.batchSize n.resourcePntg = .ok v) (hslo : v + d ≤ t.SLO) :
    InTime s n := by
  refine Or.inr ⟨d, v, hduty, ?_, ?_⟩
  · rw [htasks]
    exact Scheduler.tasksLatency_single hv
  · intro u hu
    rw [htasks] at hu
    rw [List.mem_singleton.mp hu]
    linarith

/-! ## Placements that were not tested -/

/-- The batch-size test for a residue gpu-let, at batch size 1 on a node. -/
def Scheduler.unitFits (s : Scheduler) (n : Node) (t : Task) : Bool :=
  match s.soloLatency n.type t.id 1 n.resourcePntg with
  | .ok v => Scheduler.residueFits v 1 t.requestRate t.SLO
  | .error _ => false

/-- An estimated gpu-let that has a partition; if it runs back to back, twice
its latency is within the SLO; and if its batch size is 1, that is feasible. -/
def Scheduler.gpuletFits (s : Scheduler) (n : Node) : Bool :=
  decide (n.resourcePntg ≠ 0) && n.vTaskList.all fun t =>
    (decide (n.occupancy ≠ 1) || decide (2 * s.dutyOf n ≤ t.SLO)) &&
      (decide (t.batchSize ≠ 1) || s.unitFits n t)

/-- What `getMaxBatch` would test holds of a placement that `findBestFit` has
not tested. -/
def withinSLO (s : Scheduler) (c : Core) : Action → Bool
  | .fit _ n false => s.gpuletFits n
  | .place _ .saturated t duty _ => decide (2 * duty ≤ t.SLO)
  | .place a .residue t _ _ | .merged a t _ _ _ => (c.sim.node? a).any fun n => s.unitFits n t
  | _ => true

theorem Scheduler.unitFits_ok {t : Task} (h : s.unitFits n t = true) :
    ∃ v, s.soloLatency n.type t.id 1 n.resourcePntg = .ok v ∧
      v + 1000 * ((1 : Int) : ℚ) / t.requestRate ≤ t.SLO := by
  unfold unitFits at h
  split at h
  case h_1 v hv => exact ⟨v, hv, (residueFits_iff.mp h).2⟩
  case h_2 => cases h

/-! ## Steps -/

section Steps

variable (hi : s.useInterference = false)
include hi

/-- A gpu-let that was not tested on its node. -/
theorem InTime.unchecked (ht : s.useSelfTuning = false) {org m : Node} {id SLO : Int} {e : Task}
    {d v : ℚ} (hlet : Gpulet s id SLO org e d v) (htype : m.type = org.type)
    (hpart : org.resourcePntg = m.resourcePntg) (hfits : s.gpuletFits org = true) :
    InTime s (copyToNode org m s.useRepartition) := by
  have hsolo := hlet.latency hi
  have hplace : (copyToNode org m s.useRepartition).resourcePntg = org.resourcePntg := by
    simp only [copyToNode]
    split
    · rfl
    · exact hpart.symm
  unfold Scheduler.gpuletFits at hfits
  simp only [Bool.and_eq_true, Bool.or_eq_true, decide_eq_true_eq, hlet.tasks, List.all_cons,
    List.all_nil, Bool.and_true] at hfits
  obtain ⟨hne, hback, hunit⟩ := hfits
  have hslo : v + d ≤ e.SLO := by
    cases (hlet.plain ht).2 with
    | own hocc hduty =>
        have hd : s.dutyOf org = d := by simp [Scheduler.dutyOf, hlet.duty]
        have htwice := hback.resolve_left fun hno => hno hocc
        rw [hd] at htwice
        linarith
    | period hrate hduty hslo =>
        rcases hslo with hslo | hone | hzero
        · rw [hlet.SLO_eq]
          exact hslo
        · obtain ⟨w, hw, hle⟩ := Scheduler.unitFits_ok (hunit.resolve_left fun hno => hno hone)
          rw [hone] at hsolo hduty
          obtain rfl : v = w := Except.ok.inj (hsolo.symm.trans hw)
          rw [hduty]
          exact hle
        · exact absurd hzero hne
  refine .single (t := e) (d := d) (v := v) hlet.tasks hlet.duty ?_ hslo
  rw [hplace]
  exact (show s.soloLatency m.type e.id e.batchSize org.resourcePntg = .ok v by
    rw [htype]; exact hsolo)

/-- A gpu-let that `findBestFit` tested on its node. -/
theorem InTime.tested {org m : Node} {id SLO : Int} {e : Task} {d v w : ℚ}
    (hlet : Gpulet s id SLO org e d v) (htype : m.type = org.type)
    (hrepart : s.useRepartition = true → org.resourcePntg = m.resourcePntg)
    (hw : s.getLatencyOn org.type e.id e.batchSize m c.sim = .ok w) (hslo : w + d ≤ e.SLO) :
    InTime s (copyToNode org m s.useRepartition) := by
  have hsolo := Scheduler.getLatencyOn_solo hi hw
  have hplace : (copyToNode org m s.useRepartition).resourcePntg = m.resourcePntg := by
    simp only [copyToNode]
    split
    case isTrue hon => exact hrepart hon
    case isFalse => rfl
  refine .single (n := copyToNode org m s.useRepartition) (t := e) (d := d) (v := w)
    hlet.tasks hlet.duty ?_ hslo
  rw [hplace]
  exact (show s.soloLatency m.type e.id e.batchSize m.resourcePntg = .ok w by
    rw [htype]; exact hsolo)

theorem InTime.fit (ht : s.useSelfTuning = false) (hhome : Homed c.sim) {org : Node}
    {checked : Bool} (hd : FitGuard s c a org checked)
    (hok : withinSLO s c (.fit a org checked) = true) (hn : c.sim.node? a = some n) :
    InTime s (copyToNode org n s.useRepartition) := by
  obtain ⟨m, gpu, e, d, v, hm, -, hgpu, htype, hlet, hrepart, hsame, htested⟩ := hd.target
  obtain rfl : n = m := Option.some.inj (hn.symm.trans hm)
  have hntype : n.type = org.type := (hhome.node_type hn hgpu).trans htype
  cases checked with
  | false => exact .unchecked hi ht hlet hntype (hsame rfl) hok
  | true =>
      obtain ⟨w, hwlat, hslo⟩ := htested rfl
      exact .tested hi hlet hntype hrepart hwlat hslo

/-- A gpu-let of `readjust`. The network limit may have cut its batch size
after the test. -/
theorem InTime.place (hmono : BatchMonotone s) {kind : Kind} {t : Task} {duty occ : ℚ}
    (hd : PlaceGuard s c a kind t duty) (hok : withinSLO s c (.place a kind t duty occ) = true)
    (hn : c.sim.node? a = some n) :
    InTime s { n with
      vTaskList := n.vTaskList ++ [t], dutyCycle := some duty, occupancy := occ } := by
  obtain ⟨m, k, v, hm, hnil, hlo, hle, -, hlat, hduty⟩ := hd.target
  obtain rfl : n = m := Option.some.inj (hn.symm.trans hm)
  obtain ⟨w, hwlat, hwv⟩ := hmono (hlat hi) hlo hle
  have hslo : v + duty ≤ t.SLO := by
    cases hduty with
    | saturated heq =>
        have htwice : 2 * duty ≤ t.SLO := of_decide_eq_true hok
        linarith
    | residue hrate heq htest =>
        rcases htest with htest | rfl
        · rw [hd.SLO_eq]
          exact htest
        · simp only [withinSLO, hn, Option.any_some] at hok
          obtain ⟨u, hu, hfit⟩ := Scheduler.unitFits_ok hok
          obtain rfl : v = u := Except.ok.inj ((hlat hi).symm.trans hu)
          rw [heq]
          exact hfit
  exact .single (t := t) (d := duty) (v := w) (by simp [hnil]) rfl hwlat (by linarith)

theorem InTime.merged {t : Task} {duty occ : ℚ} {left : Int} (hd : MergedGuard s c a t duty left)
    (hok : withinSLO s c (.merged a t duty occ left) = true) (hn : c.sim.node? a = some n) :
    InTime s { n with
      vTaskList := n.vTaskList ++ [t], dutyCycle := some duty, occupancy := occ } := by
  obtain ⟨m, v, hm, hnil, hlat, htest⟩ := hd.target
  obtain rfl : n = m := Option.some.inj (hn.symm.trans hm)
  have hslo : v + duty ≤ t.SLO := by
    rcases htest with htest | hone
    · rw [hd.SLO_eq]
      exact htest
    · simp only [withinSLO, hn, Option.any_some] at hok
      obtain ⟨u, hu, hfit⟩ := Scheduler.unitFits_ok hok
      have hv := hlat hi
      rw [hone] at hv
      obtain rfl : v = u := Except.ok.inj (hv.symm.trans hu)
      rw [hd.duty_eq, hone]
      exact hfit
  exact .single (t := t) (d := duty) (v := v) (by simp [hnil]) rfl (hlat hi) hslo

/-- `allocateTimeShare` has tested the new task and those it joins. -/
theorem InTime.share (hmono : BatchMonotone s) {t : Task} {duty left : Int} {occ : ℚ}
    (hd : ShareGuard s c a t duty left) (hn : c.sim.node? a = some n) :
    InTime s { n with
      vTaskList := n.vTaskList.map (retime duty) ++ [t]
      dutyCycle := some (duty : ℚ), occupancy := occ } := by
  obtain ⟨m, latency, others, hm, hshares⟩ := hd.target
  obtain rfl : n = m := Option.some.inj (hn.symm.trans hm)
  obtain ⟨sum, hsum, hle⟩ := Scheduler.tasksLatency_retime hi hmono hshares.others_ok
  have hid : t.id = c.task.id := by
    rw [hd.new_eq]
    rfl
  have htSLO : t.SLO = c.task.SLO := by
    rw [hd.new_eq]
    rfl
  have hnew : s.soloLatency n.type t.id t.batchSize n.resourcePntg = .ok latency := by
    rw [hid]
    exact Scheduler.getLatencyOn_solo hi hshares.latency_ok
  refine Or.inr ⟨duty, sum + latency, rfl,
    Scheduler.tasksLatency_append hsum (Scheduler.tasksLatency_single hnew), ?_⟩
  intro u hu
  rcases List.mem_append.mp hu with hu | hu
  · obtain ⟨u0, hu0, rfl⟩ := List.mem_map.mp hu
    have hslo : latency + others + duty ≤ u0.SLO := hshares.slo_others u0 hu0
    have hkeep : (retime duty u0).SLO = u0.SLO := rfl
    rw [hkeep]
    linarith
  · rw [List.mem_singleton.mp hu, htSLO]
    have hslo := hshares.slo
    linarith

theorem InTime.writes (ht : s.useSelfTuning = false) (hpos : PositiveLatency s)
    (hmono : BatchMonotone s) (hhome : Homed c.sim) (hd : Detail s c act)
    (hok : withinSLO s c act = true) (hw : act.writes s.useRepartition c = some (a, f))
    (hn : c.sim.node? a = some n) (h : InTime s n) : InTime s (f n) := by
  cases act <;> simp only [Action.writes, Option.some.injEq, Prod.mk.injEq, reduceCtorEq] at hw
  all_goals obtain ⟨rfl, rfl⟩ := hw
  case forget b =>
      rcases h with hnil | ⟨d, sum, hduty, hsum, hall⟩
      · exact .empty (by simp [hnil])
      · obtain ⟨sum', hsum', hle⟩ := Scheduler.tasksLatency_eraseP hpos hsum
        refine Or.inr ⟨d, sum', hduty, hsum', fun t htask => ?_⟩
        have hslo := hall t (List.mem_of_mem_eraseP htask)
        linarith
  case occupy => exact h
  case fit => exact .fit hi ht hhome hd hok hn
  case prime b duty occ =>
      obtain ⟨m, hm, hnil⟩ := hd
      obtain rfl : n = m := Option.some.inj (hn.symm.trans hm)
      exact .empty hnil
  case place => exact .place hi hmono hd hok hn
  case revert => exact .empty rfl
  case adjust =>
      obtain ⟨hon, -⟩ := hd
      rw [hi] at hon
      cases hon
  case wipe => exact .empty rfl
  case merged => exact .merged hi hd hok hn
  case share => exact .share hi hmono hd hn

end Steps

/-! ## Runs -/

theorem InTime.copy {rate : Int} (h : InTime s n) : InTime s (SimState.copyNode rate n) := by
  have hkeep : ∀ {ts : List Task} {sum : ℚ},
      s.tasksLatency n.type n.resourcePntg ts = .ok sum →
      s.tasksLatency n.type n.resourcePntg
        (ts.map fun t => { t with additionalRate := rate }) = .ok sum := by
    intro ts
    induction ts with
    | nil => exact fun hsum => hsum
    | cons t ts ih =>
        intro sum hsum
        obtain ⟨v, rest, hv, hrest, rfl⟩ := Scheduler.tasksLatency_cons.mp hsum
        exact Scheduler.tasksLatency_cons.mpr ⟨v, rest, hv, ih hrest, rfl⟩
  rcases h with hnil | ⟨d, sum, hduty, hsum, hall⟩
  · exact .empty (by simp [SimState.copyNode, hnil])
  · refine Or.inr ⟨d, sum, hduty, hkeep hsum, fun t ht => ?_⟩
    obtain ⟨t0, ht0, rfl⟩ := List.mem_map.mp ht
    exact hall t0 ht0

/-- **SLO safety.** With interference and self tuning off, a successful run on
a fresh decision serves every task of every node within its SLO, provided that
each of its placements was within the SLO by the test of `getMaxBatch`. -/
theorem slo_safe {table : SatTable} {tasks : List Task} {prev out : SimState} {repart : Bool}
    {o : Outcome} (hi : s.useInterference = false) (hst : s.useSelfTuning = false)
    (hpos : PositiveLatency s) (hmono : BatchMonotone s) (htab : Built s table)
    (hfresh : Fresh s prev) (h : s.runScheduling table tasks prev out repart = .ok o)
    (hret : o.ret = .success) (hok : ∀ p ∈ o.log, withinSLO s p.1 p.2 = true)
    {n : Node} (hn : n ∈ o.out.nodes) {t : Task} (ht : t ∈ n.vTaskList) :
    ∃ d sum, n.dutyCycle = some d ∧
      s.tasksLatency n.type n.resourcePntg n.vTaskList = .ok sum ∧ d + sum ≤ t.SLO := by
  obtain ⟨-, r', hruns, hlog, -, hout, -⟩ := Scheduler.runScheduling_ok htab h
  have hall : Homed r'.cur.sim ∧ Every (InTime (s.withRepart repart)) r'.cur.sim := by
    refine hruns.invariant (I := fun c => Homed c.sim ∧ Every (InTime (s.withRepart repart)) c.sim)
      (C := fun c act => withinSLO s c act = true) ?_ (fun p hp => hok p (hlog ▸ hp))
      ⟨hfresh.homed, hfresh.every fun _ => InTime.empty⟩
    rintro c act ⟨hhome, hevery⟩ ⟨hg, -⟩ hC
    refine ⟨hhome.apply hg.1, hevery.apply (fun _ => InTime.empty) hg.1 ?_⟩
    intro a f m hw hm hin
    exact InTime.writes (s := s.withRepart repart) hi hst ⟨hpos.latency, hpos.overhead_224,
      hpos.overhead_300⟩ hmono hhome hg.1 hC hw hm hin
  rw [hout hret, SimState.nodes_copy] at hn
  obtain ⟨m, hm, rfl⟩ := List.mem_map.mp hn
  obtain ⟨a, ha⟩ := SimState.mem_nodes.mp hm
  rcases (hall.2 a m ha).copy with hnil | ⟨d, sum, hduty, hsum, hslo⟩
  · rw [hnil] at ht
    cases ht
  · rw [Scheduler.tasksLatency_withRepart] at hsum
    exact ⟨d, sum, hduty, hsum, hslo t ht⟩

/-- What a constant profile answers. -/
theorem Scheduler.plain_solo {parts : List Int} {k : Int} {L v : ℚ} {type : DeviceType}
    {id b part : Int} :
    (plain (profile parts fun _ _ => L) parts k).soloLatency type id b part = .ok v ↔
      (∃ name, getModelName id = .ok name) ∧ 1 ≤ b ∧ b ≤ maxBatch ∧ part ∈ parts ∧ v = L := by
  simp only [soloLatency, Query.bind_ok, Query.pure_ok]
  constructor
  · rintro ⟨name, hname, l, hl, o, ho, rfl⟩
    have hprofile : profile parts (fun _ _ => L) name b part = some l := devLatency_ok hl
    obtain ⟨hlo, hhi, hpart, rfl⟩ := profile_ok name hprofile
    obtain rfl : (0 : ℚ) = o := Except.ok.inj ho
    exact ⟨⟨name, hname⟩, hlo, hhi, hpart, by simp [plain]⟩
  · rintro ⟨⟨name, hname⟩, hlo, hhi, hpart, rfl⟩
    refine ⟨name, hname, v, ?_, 0, rfl, by simp [plain]⟩
    simp [devLatency, plain, profile, hlo, hhi, hpart]

theorem Scheduler.plain_monotone {parts : List Int} {k : Int} {L : ℚ} :
    BatchMonotone (plain (profile parts fun _ _ => L) parts k) := by
  intro type id b b' part v h hlo hle
  obtain ⟨hname, -, hhi, hpart, rfl⟩ := plain_solo.mp h
  exact ⟨v, plain_solo.mpr ⟨hname, hlo, hle.trans hhi, hpart, rfl⟩, le_rfl⟩

/-- Two models that share a node, both in time. -/
theorem slo_safe_sharing :
    ∃ o n t d sum, (Scheduler.plain (Scheduler.profile [100] fun _ _ => 5) [100] 1).firstRun
        [Scheduler.request 0 100 30, Scheduler.request 1 51 60] true = .ok o ∧
      n ∈ o.out.nodes ∧ n.vTaskList.length = 2 ∧ t ∈ n.vTaskList ∧ n.dutyCycle = some d ∧
      (Scheduler.plain (Scheduler.profile [100] fun _ _ => 5) [100] 1).tasksLatency n.type
        n.resourcePntg n.vTaskList = .ok sum ∧ d + sum ≤ t.SLO := by
  obtain ⟨o, hrun, ho⟩ := Query.of_returns
    (q := (Scheduler.plain (Scheduler.profile [100] fun _ _ => 5) [100] 1).firstRun
      [Scheduler.request 0 100 30, Scheduler.request 1 51 60] true)
    (p := fun o => decide (o.ret = .success ∧ o.out.nodes.map (·.vTaskList.length) = [2]) &&
      o.log.all fun p =>
        withinSLO (Scheduler.plain (Scheduler.profile [100] fun _ _ => 5) [100] 1) p.1 p.2)
    (by decide +kernel)
  obtain ⟨hends, hok⟩ := Bool.and_eq_true_iff.mp ho
  obtain ⟨hret, hlen⟩ := of_decide_eq_true hends
  obtain ⟨n, hn, hlen⟩ := List.map_eq_singleton_iff.mp hlen
  have hmem : n ∈ o.out.nodes := by simp [hn]
  obtain ⟨t, ts, hts⟩ := List.exists_cons_of_length_eq_add_one hlen
  have ht : t ∈ n.vTaskList := by simp [hts]
  obtain ⟨d, sum, hd, hsum, hslo⟩ := slo_safe
    (s := Scheduler.plain (Scheduler.profile [100] fun _ _ => 5) [100] 1) rfl rfl
    (Scheduler.plain_positive (by norm_num)) Scheduler.plain_monotone .empty
    (Scheduler.setUp_fresh rfl) hrun hret (List.all_eq_true.mp hok) hmem ht
  exact ⟨o, n, t, d, sum, hrun, hmem, hlen, ht, hd, hsum, hslo⟩

/-- One model that takes 100 ms at every batch size, with an SLO of 150 ms:
batch size 1 is forced on a gpu-let that runs back to back. -/
theorem forced_batch_too_late :
    PositiveLatency (Scheduler.plain (Scheduler.profile [100] fun _ _ => 100) [100] 1) ∧
    BatchMonotone (Scheduler.plain (Scheduler.profile [100] fun _ _ => 100) [100] 1) ∧
    ∃ o n t d sum, (Scheduler.plain (Scheduler.profile [100] fun _ _ => 100) [100] 1).firstRun
        [Scheduler.request 0 16 150] true = .ok o ∧ o.ret = .success ∧
      n ∈ o.out.nodes ∧ t ∈ n.vTaskList ∧ n.dutyCycle = some d ∧
      (Scheduler.plain (Scheduler.profile [100] fun _ _ => 100) [100] 1).tasksLatency n.type
        n.resourcePntg n.vTaskList = .ok sum ∧ t.SLO < d + sum := by
  refine ⟨Scheduler.plain_positive (by norm_num), Scheduler.plain_monotone, ?_⟩
  obtain ⟨o, hrun, ho⟩ := Query.of_returns
    (q := (Scheduler.plain (Scheduler.profile [100] fun _ _ => 100) [100] 1).firstRun
      [Scheduler.request 0 16 150] true)
    (p := fun o => decide (o.ret = .success) && o.out.nodes.any fun n =>
      decide (n.dutyCycle = some 100 ∧ n.resourcePntg = 100 ∧
        n.vTaskList.map (fun t => (t.id, t.batchSize, t.SLO)) = [(0, 1, 150)]))
    (by decide +kernel)
  obtain ⟨hret, hany⟩ := Bool.and_eq_true_iff.mp ho
  obtain ⟨n, hmem, hn⟩ := List.any_eq_true.mp hany
  obtain ⟨hduty, hpart, htasks⟩ := of_decide_eq_true hn
  obtain ⟨t, hlist, ht⟩ := List.map_eq_singleton_iff.mp htasks
  obtain ⟨hid, hbatch, hslo⟩ : t.id = 0 ∧ t.batchSize = 1 ∧ t.SLO = 150 := by
    simpa only [Prod.mk.injEq] using ht
  refine ⟨o, n, t, 100, 100, hrun, of_decide_eq_true hret, hmem, by simp [hlist], hduty, ?_, ?_⟩
  · rw [hlist, hpart]
    refine Scheduler.tasksLatency_single (Scheduler.plain_solo.mpr ?_)
    rw [hid, hbatch]
    exact ⟨⟨_, rfl⟩, by decide, by decide, by decide, rfl⟩
  · rw [hslo]
    norm_num

end Glet
