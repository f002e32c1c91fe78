import Glet.AdjustSat
import Glet.AllocateFit

/-!
# Who is charged for interference

`allocateFit` adjusts every node of the GPU it has placed a gpu-let on, and
hands `adjustSatNode` its own task to charge, also for the nodes of other
models. (`checkNeedtoRevert` charges the task of the node.) What a call adds to
the task's `additional_rate` is therefore what all saturated nodes lost, and
it is what the nodes of the task lost exactly if the others lost nothing.
-/

namespace Glet

open Recorder

namespace Scheduler

variable {s : Scheduler} {r r' r'' : Rec Core Action}

theorem adjustSatNode_lost {n n' : Node} {sim : SimState} {lost : Int}
    (h : s.adjustSatNode n sim = .ok (some (n', lost))) :
    ∃ t t', n.vTaskList = [t] ∧ n'.vTaskList = [t'] ∧
      lost = max (toInt (t.throughput - t'.throughput)) 0 := by
  unfold adjustSatNode at h
  split at h
  case h_2 => cases h
  case h_1 t hts =>
    simp only [Query.bind_ok] at h
    obtain ⟨-, -, l, -, h⟩ := h
    split at h
    · simp only [Query.bind_ok, Query.pure_ok, Option.some.injEq, Prod.mk.injEq] at h
      obtain ⟨trp, -, rfl, rfl⟩ := h
      exact ⟨t, _, hts, rfl, rfl⟩
    · simp only [Query.bind_ok] at h
      obtain ⟨-, -, found, -, h⟩ := h
      cases found with
      | none => cases Query.pure_ok.mp h
      | some p =>
          simp only [Query.bind_ok, Query.pure_ok, Option.some.injEq, Prod.mk.injEq] at h
          obtain ⟨-, -, -, -, period, -, rfl, rfl⟩ := h
          exact ⟨t, _, hts, rfl, lost_eq_max _ _⟩

/-! ## Losses in a record -/

/-- The task of a saturated gpu-let at an address. -/
def saturatedTask (c : Core) (b : Addr) : Option Task :=
  (c.sim.node? b).bind fun n =>
    if n.occupancy = 1 then
      match n.vTaskList with
      | [t] => some t
      | _ => none
    else none

/-- The whole requests per second that a recorded step takes from the saturated
gpu-lets of the models in `hosts`. -/
def lossOf (hosts : Int → Bool) (p : Core × Action) : Int :=
  match p.2 with
  | .adjust b n' =>
      match saturatedTask p.1 b, n'.vTaskList with
      | some t, [t'] => if hosts t.id then max (toInt (t.throughput - t'.throughput)) 0 else 0
      | _, _ => 0
  | _ => 0

/-- What `adjustSatNode` would charge for the node at an address. -/
def chargeAt (s : Scheduler) (c : Core) (b : Addr) : Int :=
  match c.sim.node? b with
  | some n =>
      match s.adjustSatNode n c.sim with
      | .ok (some (_, lost)) => lost
      | _ => 0
  | none => 0

/-- A recorded adjustment of a saturated gpu-let is what `adjustSatNode` made of
it. -/
def Genuine (s : Scheduler) (p : Core × Action) : Prop :=
  ∀ b n' t, p.2 = .adjust b n' → saturatedTask p.1 b = some t →
    ∃ t', n'.vTaskList = [t'] ∧
      s.chargeAt p.1 b = max (toInt (t.throughput - t'.throughput)) 0

/-- A run that charges the current task for everything saturated gpu-lets lost
in it. -/
structure Charged (s : Scheduler) (r r' : Rec Core Action) (l : List (Core × Action)) : Prop where
  log : r'.log = l ++ r.log
  id_eq : r'.cur.task.id = r.cur.task.id
  rate : r'.cur.task.additionalRate =
    r.cur.task.additionalRate + (l.map (lossOf fun _ => true)).sum
  genuine : ∀ p ∈ l, Genuine s p

/-- Actions that neither adjust a node nor touch the task's additional rate. -/
def Silent (c : Core) (a : Action) (c' : Core) : Prop :=
  (∀ b n', a ≠ .adjust b n') ∧ c'.task.id = c.task.id ∧
    c'.task.additionalRate = c.task.additionalRate

theorem lossOf_of_not_adjust {hosts : Int → Bool} {c : Core} {a : Action}
    (h : ∀ b n', a ≠ .adjust b n') : lossOf hosts (c, a) = 0 := by
  cases a with
  | adjust b n' => exact absurd rfl (h b n')
  | _ => rfl

namespace Charged

variable {l l' : List (Core × Action)}

theorem refl (r : Rec Core Action) : Charged s r r [] :=
  ⟨rfl, rfl, by simp, fun p hp => by cases hp⟩

theorem trans (h : Charged s r r' l) (h' : Charged s r' r'' l') : Charged s r r'' (l' ++ l) := by
  refine ⟨by rw [h'.log, h.log, List.append_assoc], h'.id_eq.trans h.id_eq, ?_, ?_⟩
  · rw [h'.rate, h.rate, List.map_append, List.sum_append]
    ring
  · intro p hp
    rcases List.mem_append.mp hp with hp | hp
    · exact h'.genuine p hp
    · exact h.genuine p hp

theorem act {a : Action} (h : Silent r.cur a (s.did a r).cur) :
    Charged s r (s.did a r) [(r.cur, a)] := by
  refine ⟨rfl, h.2.1, ?_, ?_⟩
  · rw [h.2.2, List.map_singleton, List.sum_singleton, lossOf_of_not_adjust h.1, add_zero]
  · intro p hp b n' t hadj
    obtain rfl := List.mem_singleton.mp hp
    exact absurd hadj (h.1 b n')

end Charged

/-- Accounting for memory. -/
theorem addGPUMemUsage_charged {a : Addr} {u : Unit} (h : s.addGPUMemUsage a r = .ok (u, r'))
    (hu : r.cur.uncharged = some a) : ∃ l, Charged s r r' l := by
  obtain ⟨hsteps, -⟩ := addGPUMemUsage_ok h hu
  obtain ⟨htask, -⟩ := charge_frame hsteps
  obtain ⟨l, hlog, hpath⟩ := hsteps
  have hnot : ∀ p ∈ l, ∀ b n', p.2 ≠ .adjust b n' := by
    intro p hp b n' hadj
    have hkind := (hpath.forall_mem p hp).2
    rw [hadj] at hkind
    cases hkind
  refine ⟨l, hlog, by rw [htask], ?_, fun p hp b n' t hadj => absurd hadj (hnot p hp b n')⟩
  have hzero : ∀ x ∈ l.map (lossOf fun _ => true), x = 0 := by
    intro x hx
    obtain ⟨p, hp, rfl⟩ := List.mem_map.mp hx
    exact lossOf_of_not_adjust (hnot p hp)
  rw [htask, List.sum_eq_zero hzero, add_zero]

/-! ## The interference section -/

theorem node?_saturatedTask {c : Core} {b : Addr} {n : Node} {t : Task} (hn : c.sim.node? b = some n)
    (hocc : n.occupancy = 1) (ht : n.vTaskList = [t]) : saturatedTask c b = some t := by
  simp only [saturatedTask, hn, Option.bind_some, if_pos hocc, ht]

/-- The two writes for a saturated gpu-let. -/
theorem charged_sat {b : Addr} {n n' : Node} {lost : Int} (hn : r.cur.sim.node? b = some n)
    (hocc : n.occupancy = 1) (h : s.adjustSatNode n r.cur.sim = .ok (some (n', lost))) :
    ∃ l, Charged s r (s.did (.addRate lost) (s.did (.adjust b n') r)) l := by
  obtain ⟨t, t', ht, ht', hlost⟩ := adjustSatNode_lost h
  have hsat := node?_saturatedTask hn hocc ht
  refine ⟨[((s.did (.adjust b n') r).cur, .addRate lost), (r.cur, .adjust b n')], rfl, ?_, ?_, ?_⟩
  · simp [Action.apply]
  · simp [Action.apply, lossOf, hsat, ht', hlost]
  · intro p hp b' m u hadj hu
    rcases List.mem_cons.mp hp with rfl | hp
    · cases hadj
    · obtain rfl := List.mem_singleton.mp hp
      obtain ⟨rfl, rfl⟩ := Action.adjust.inj hadj
      obtain rfl := Option.some.inj (hsat.symm.trans hu)
      refine ⟨t', ht', ?_⟩
      simp only [chargeAt, hn, h, hlost]

/-- The write for any other gpu-let. -/
theorem charged_res (n' : Node) {b : Addr} {n : Node} (hn : r.cur.sim.node? b = some n)
    (hocc : n.occupancy ≠ 1) : ∃ l, Charged s r (s.did (.adjust b n') r) l := by
  have hnone : saturatedTask r.cur b = none := by
    simp only [saturatedTask, hn, Option.bind_some, if_neg hocc]
  refine ⟨[(r.cur, .adjust b n')], rfl, ?_, ?_, ?_⟩
  · simp [Action.apply]
  · simp [Action.apply, lossOf, hnone]
  · intro p hp b' m u hadj hu
    obtain rfl := List.mem_singleton.mp hp
    obtain ⟨rfl, rfl⟩ := Action.adjust.inj hadj
    rw [hnone] at hu
    cases hu

theorem adjustFitNodes_charged {bs : List Addr} {ret : Ret}
    (h : s.adjustFitNodes bs r = .ok (ret, r')) : ∃ l, Charged s r r' l := by
  induction bs generalizing r with
  | nil =>
      obtain ⟨-, rfl⟩ := pure_end h
      exact ⟨[], .refl _⟩
  | cons b bs ih =>
      unfold adjustFitNodes at h
      obtain ⟨n, hn, h⟩ := getNode_bind h
      replace h := getSim_bind h
      split at h
      case isTrue hocc =>
        obtain ⟨o, ho, h⟩ := query_bind h
        cases o with
        | none =>
            obtain ⟨-, rfl⟩ := pure_end h
            exact ⟨[], .refl _⟩
        | some p =>
            obtain ⟨n', lost⟩ := p
            obtain ⟨l, hl⟩ := charged_sat hn hocc ho
            obtain ⟨l', hl'⟩ := ih (act_bind (act_bind h))
            exact ⟨_, hl.trans hl'⟩
      case isFalse hocc =>
        obtain ⟨o, ho, h⟩ := query_bind h
        cases o with
        | none => exact ih h
        | some n' =>
            obtain ⟨l, hl⟩ := charged_res n' hn hocc
            obtain ⟨l', hl'⟩ := ih (act_bind h)
            exact ⟨_, hl.trans hl'⟩

theorem adjustFit_charged {a : Addr} {ret : Ret} (h : s.adjustFit a r = .ok (ret, r')) :
    ∃ l, Charged s r r' l := by
  unfold adjustFit at h
  split at h
  · obtain ⟨n, -, h⟩ := getNode_bind h
    exact adjustFitNodes_charged (getSim_bind h)
  · obtain ⟨-, rfl⟩ := pure_end h
    exact ⟨[], .refl _⟩

/-! ## The whole call -/

theorem split_silent (a : Addr) (part : Int) :
    Silent r.cur (.split a part) (s.did (.split a part) r).cur := by
  refine ⟨by simp, ?_, ?_⟩
  all_goals
    simp only [Prog.after_cur, Action.apply]
    split <;> rfl

theorem placeFit_charged {a : Addr} {n : Node} {ret : Ret} (checked : Bool)
    (h : s.placeFit a n checked r = .ok (ret, r')) :
    ∃ l, Charged s r r' l := by
  obtain ⟨r2, r3, hmem, hadj, hend⟩ := placeFit_cases h
  obtain ⟨l2, h2⟩ := addGPUMemUsage_charged hmem rfl
  obtain ⟨l3, h3⟩ := adjustFit_charged hadj
  have hfit : Silent r.cur (.fit a n checked) (s.did (.fit a n checked) r).cur :=
    ⟨by simp, by simp [Action.apply], by simp [Action.apply]⟩
  have hrun := ((Charged.act hfit).trans h2).trans h3
  rcases hend with ⟨-, rfl⟩ | ⟨-, m, t, -, -, rfl⟩
  · exact ⟨_, hrun.trans (.act ⟨by simp, rfl, rfl⟩)⟩
  · exact ⟨_, hrun.trans (.act ⟨by simp, rfl, rfl⟩)⟩

theorem allocateFitOne_charged {input : Node} {ret : Ret}
    (h : s.allocateFitOne input r = .ok (ret, r')) : ∃ l, Charged s r r' l := by
  rcases allocateFitOne_cases h with ⟨-, rfl⟩ | ⟨a, best, n, checked, r0, -, -, hpath, h⟩
  · exact ⟨[], .refl _⟩
  · cases hpath with
    | grow => exact placeFit_charged _ h
    | split =>
        obtain ⟨l, hl⟩ := placeFit_charged _ h
        exact ⟨_, (Charged.act (split_silent a _)).trans hl⟩
    | keep => exact placeFit_charged _ h

theorem allocateFit_charged {estimate : List Node} {ret : Ret}
    (h : s.allocateFit estimate r = .ok (ret, r')) : ∃ l, Charged s r r' l := by
  induction estimate generalizing r with
  | nil =>
      unfold allocateFit at h
      replace h := getTask_bind h
      split at h
      · obtain ⟨-, rfl⟩ := pure_end h
        exact ⟨[], .refl _⟩
      · replace h := act_bind h
        obtain ⟨-, rfl⟩ := pure_end h
        exact ⟨_, .act ⟨by simp, rfl, rfl⟩⟩
  | cons input rest ih =>
      unfold allocateFit at h
      obtain ⟨ret1, r1, hone, h⟩ := Prog.bind_ok h
      obtain ⟨l, hl⟩ := allocateFitOne_charged hone
      cases ret1 with
      | failure =>
          obtain ⟨-, rfl⟩ := pure_end h
          exact ⟨l, hl⟩
      | success =>
          obtain ⟨l', hl'⟩ := ih h
          exact ⟨_, hl.trans hl'⟩

/-! ## Own and foreign losses -/

/-- In the recorded adjustments `l` no saturated gpu-let of a model other than
`id` loses a whole request per second. -/
def SparesOthers (s : Scheduler) (id : Int) (l : List (Core × Action)) : Prop :=
  ∀ p ∈ l, ∀ b n' t, p.2 = .adjust b n' → saturatedTask p.1 b = some t → t.id ≠ id →
    s.chargeAt p.1 b = 0

theorem lossOf_nonneg (hosts : Int → Bool) (p : Core × Action) : 0 ≤ lossOf hosts p := by
  unfold lossOf
  split
  · split
    · split
      · exact le_max_right _ _
      · exact le_rfl
    · exact le_rfl
  · exact le_rfl

theorem lossOf_split (id : Int) (p : Core × Action) :
    lossOf (fun _ => true) p = lossOf (fun i => i == id) p + lossOf (fun i => i != id) p := by
  unfold lossOf
  split
  · split
    case h_1 t t' _ _ =>
      by_cases hid : t.id = id <;> simp [hid]
    case h_2 => rfl
  · rfl

theorem sum_lossOf_split (id : Int) (l : List (Core × Action)) :
    (l.map (lossOf fun _ => true)).sum =
      (l.map (lossOf fun i => i == id)).sum + (l.map (lossOf fun i => i != id)).sum := by
  rw [← List.sum_map_add]
  exact congrArg List.sum (List.map_congr_left fun p _ => lossOf_split id p)

/-- The others lost nothing in a step exactly if `adjustSatNode` charges nothing
for them. -/
theorem lossOf_foreign_eq_zero_iff {id : Int} {p : Core × Action} (hgen : Genuine s p) :
    lossOf (fun i => i != id) p = 0 ↔ ∀ b n' t, p.2 = .adjust b n' →
      saturatedTask p.1 b = some t → t.id ≠ id → s.chargeAt p.1 b = 0 := by
  obtain ⟨c, a⟩ := p
  constructor
  · rintro hzero b n' t rfl hsat hid
    obtain ⟨t', ht', hcharge⟩ := hgen b n' t rfl hsat
    rw [hcharge]
    simpa [lossOf, hsat, ht', hid] using hzero
  · intro hspare
    cases a with
    | adjust b n' =>
        cases hsat : saturatedTask c b with
        | none => simp [lossOf, hsat]
        | some t =>
            obtain ⟨t', ht', hcharge⟩ := hgen b n' t rfl hsat
            by_cases hid : t.id = id
            · simp [lossOf, hsat, ht', hid]
            · have hzero := hspare b n' t rfl hsat hid
              rw [hcharge] at hzero
              simpa [lossOf, hsat, ht', hid] using hzero
    | _ => exact iff_of_true rfl trivial |>.mpr trivial

theorem sum_foreign_eq_zero_iff {id : Int} {l : List (Core × Action)}
    (hgen : ∀ p ∈ l, Genuine s p) :
    (l.map (lossOf fun i => i != id)).sum = 0 ↔ s.SparesOthers id l := by
  have hnonneg : ∀ x ∈ l.map (lossOf fun i => i != id), 0 ≤ x := by
    intro x hx
    obtain ⟨p, -, rfl⟩ := List.mem_map.mp hx
    exact lossOf_nonneg _ p
  constructor
  · intro hsum p hp
    exact (lossOf_foreign_eq_zero_iff (hgen p hp)).mp
      (List.all_zero_of_le_zero_le_of_sum_eq_zero hnonneg hsum (List.mem_map_of_mem hp))
  · intro hspare
    refine List.sum_eq_zero fun x hx => ?_
    obtain ⟨p, hp, rfl⟩ := List.mem_map.mp hx
    exact (lossOf_foreign_eq_zero_iff (hgen p hp)).mpr (hspare p hp)

/-- **The task pays for its own losses only** exactly if the call spares the
other models: else it is charged for what they lost, too. -/
theorem allocateFit_charges_iff {estimate : List Node} {ret : Ret} {l : List (Core × Action)}
    (h : s.allocateFit estimate r = .ok (ret, r')) (hl : r'.log = l ++ r.log) :
    r'.cur.task.additionalRate =
        r.cur.task.additionalRate + (l.map (lossOf fun i => i == r.cur.task.id)).sum ↔
      s.SparesOthers r.cur.task.id l := by
  obtain ⟨l', hrun⟩ := allocateFit_charged h
  obtain rfl : l = l' := List.append_cancel_right (hl.symm.trans hrun.log)
  rw [hrun.rate, sum_lossOf_split r.cur.task.id, ← sum_foreign_eq_zero_iff hrun.genuine]
  omega

/-- One half of a GPU is empty, the other saturated by model 0 in 20 ms. -/
def sharedGPU : SimState :=
  ⟨[{ GPUID := 0, totalMemory := 11000, usedMemory := 0, TYPE := "gpu", vLoadedParts := [],
      vNodeList := [makeEmptyNode 0 50 "gpu", saturatedHalf] }], []⟩

/-- Model 1 is to be scheduled at 50 requests per second. -/
def secondTenant : Rec Core Action :=
  { cur := ⟨sharedGPU, createNewTask 1 50 100 0 0, none, none, none, .placing, [1]⟩, log := [] }

/-- Side by side the models take twice as long, and each loses 25 of its 50
requests per second. Model 1 is charged for all 50. -/
theorem allocateFit_overcharges :
    ∃ ret r', (disturbing 20 2).allocateFit [busyHalf] secondTenant = .ok (ret, r') ∧
      r'.cur.task.additionalRate = 50 ∧
      ¬ r'.cur.task.additionalRate = secondTenant.cur.task.additionalRate +
        (r'.log.map (lossOf fun i => i == secondTenant.cur.task.id)).sum := by
  obtain ⟨⟨ret, r'⟩, hrun, hp⟩ := Query.of_returns
    (q := (disturbing 20 2).allocateFit [busyHalf] secondTenant)
    (p := fun x => decide (x.2.cur.task.additionalRate = 50 ∧
      (x.2.log.map (lossOf fun i => i == 1)).sum = 25)) (by decide +kernel)
  obtain ⟨hrate, hown⟩ := of_decide_eq_true hp
  refine ⟨ret, r', hrun, hrate, ?_⟩
  rw [show secondTenant.cur.task.id = 1 from rfl, hown, hrate]
  decide

/-- Models that do not disturb each other lose nothing. -/
theorem allocateFit_charges_at :
    ∃ ret r', (disturbing 20 1).allocateFit [busyHalf] secondTenant = .ok (ret, r') ∧
      r'.cur.task.additionalRate = secondTenant.cur.task.additionalRate +
        (r'.log.map (lossOf fun i => i == secondTenant.cur.task.id)).sum := by
  obtain ⟨⟨ret, r'⟩, hrun, hp⟩ := Query.of_returns
    (q := (disturbing 20 1).allocateFit [busyHalf] secondTenant)
    (p := fun x => decide ((x.2.log.map (lossOf fun i => i != 1)).sum = 0)) (by decide +kernel)
  have hl : r'.log = r'.log ++ secondTenant.log := (List.append_nil _).symm
  obtain ⟨l, hcharged⟩ := allocateFit_charged hrun
  obtain rfl : r'.log = l := List.append_cancel_right (hl.symm.trans hcharged.log)
  exact ⟨ret, r', hrun, (allocateFit_charges_iff hrun hl).mpr
    ((sum_foreign_eq_zero_iff hcharged.genuine).mp (of_decide_eq_true hp))⟩

end Scheduler

end Glet
