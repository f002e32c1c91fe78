import Glet.Guard

/-!
# The writes of `allocateFit`

Every write of `allocateFit` meets `Detail`. `addGPUMemUsage` and the
interference section are shared with the other routines and come first.
-/

namespace Glet

open Recorder

/-- No placement is half done. -/
structure Settled (s : Scheduler) (c : Core) : Prop where
  pending : c.pending = none
  unchecked : c.unchecked = none
  uncharged : s.checkMem = true → c.uncharged = none

namespace Scheduler

variable {s : Scheduler} {r r' : Rec Core Action} {β : Type}

/-! ## Inverting the basic steps -/

theorem getSim_bind {f : SimState → Sched β} {x : β × Rec Core Action}
    (h : (getSim >>= f) r = .ok x) : f r.cur.sim r = .ok x := by
  obtain ⟨b, hb, h⟩ := Prog.ask_bind_ok h
  obtain rfl := Except.ok.inj hb
  exact h

theorem getTask_bind {f : Task → Sched β} {x : β × Rec Core Action}
    (h : (getTask >>= f) r = .ok x) : f r.cur.task r = .ok x := by
  obtain ⟨b, hb, h⟩ := Prog.ask_bind_ok h
  obtain rfl := Except.ok.inj hb
  exact h

theorem query_bind {γ : Type} {q : Query γ} {f : γ → Sched β} {x : β × Rec Core Action}
    (h : (query q >>= f) r = .ok x) : ∃ b, q = .ok b ∧ f b r = .ok x :=
  Prog.ask_bind_ok h

theorem getNode_bind {a : Addr} {f : Node → Sched β} {x : β × Rec Core Action}
    (h : (getNode a >>= f) r = .ok x) :
    ∃ n, r.cur.sim.node? a = some n ∧ f n r = .ok x := by
  obtain ⟨n, hn, h⟩ := Prog.ask_bind_ok h
  split at hn
  case h_1 m hm =>
    obtain rfl := Except.ok.inj hn
    exact ⟨m, hm, h⟩
  case h_2 => cases hn

theorem getGPU_bind {i : Nat} {f : GPU → Sched β} {x : β × Rec Core Action}
    (h : (getGPU i >>= f) r = .ok x) :
    ∃ g, r.cur.sim.vGPUList[i]? = some g ∧ f g r = .ok x := by
  obtain ⟨g, hg, h⟩ := Prog.ask_bind_ok h
  split at hg
  case h_1 m hm =>
    obtain rfl := Except.ok.inj hg
    exact ⟨m, hm, h⟩
  case h_2 => cases hg

/-- The record after an action. -/
abbrev did (s : Scheduler) (a : Action) (r : Rec Core Action) : Rec Core Action :=
  Prog.after (Action.apply s.useRepartition) a r

theorem act_bind {a : Action} {f : Unit → Sched β} {x : β × Rec Core Action}
    (h : (s.act a >>= f) r = .ok x) : f () (s.did a r) = .ok x :=
  Prog.act_bind_ok h

theorem act_end {a : Action} {u : Unit} (h : s.act a r = .ok (u, r')) : r' = s.did a r :=
  Prog.act_ok h

theorem pure_end {b b' : β} (h : (pure b : Sched β) r = .ok (b', r')) : b' = b ∧ r' = r := by
  have := Prog.pure_ok h
  exact ⟨congrArg Prod.fst this, congrArg Prod.snd this⟩

theorem steps_act {K : Action → Prop} {a : Action} (hd : Detail s r.cur a) (hk : K a) :
    Steps s K r (s.did a r) :=
  Moves.act ⟨hd, hk⟩

/-! ## Memory -/

/-- `addGPUMemUsage` after a placement on `a`. -/
theorem addGPUMemUsage_ok {a : Addr} {u : Unit} (h : s.addGPUMemUsage a r = .ok (u, r'))
    (hu : r.cur.uncharged = some a) :
    Steps s (fun act => act.isCharge = true) r r' ∧
      (s.checkMem = true → r'.cur.uncharged = none) := by
  unfold addGPUMemUsage at h
  split at h
  case isFalse hno =>
    obtain ⟨-, rfl⟩ := pure_end h
    exact ⟨Moves.refl _, fun hc => absurd hc hno⟩
  case isTrue =>
    obtain ⟨n, hn, h⟩ := getNode_bind h
    have h := getTask_bind h
    obtain ⟨gpu, hgpu, h⟩ := getGPU_bind h
    obtain ⟨o, ho, h⟩ := query_bind h
    cases o with
    | none =>
        obtain rfl := act_end h
        exact ⟨steps_act hu rfl, fun _ => rfl⟩
    | some p =>
        obtain rfl := act_end h
        exact ⟨steps_act ⟨hu, n, gpu, hn, rfl, hgpu, ho⟩ rfl, fun _ => rfl⟩

theorem charge_keeps {c : Core} {act : Action} (h : act.isCharge = true) :
    ((act.apply s.useRepartition c).task, (act.apply s.useRepartition c).pending,
      (act.apply s.useRepartition c).unchecked) = (c.task, c.pending, c.unchecked) ∧
      ∀ b, (act.apply s.useRepartition c).sim.node? b = c.sim.node? b := by
  cases act <;> try cases h
  case charge a g used m =>
      refine ⟨rfl, fun b => ?_⟩
      simp only [Action.apply]
      rw [SimState.node?_modifyGPU]
      exact fun _ => rfl
  case skipCharge a => exact ⟨rfl, fun _ => rfl⟩

/-- Accounting for memory leaves the task, the ghost state of a placement and
all nodes alone. -/
theorem charge_frame (h : Steps s (fun act => act.isCharge = true) r r') :
    r'.cur.task = r.cur.task ∧ r'.cur.pending = r.cur.pending ∧
      r'.cur.unchecked = r.cur.unchecked ∧ ∀ b, r'.cur.sim.node? b = r.cur.sim.node? b := by
  have hkeep : (r'.cur.task, r'.cur.pending, r'.cur.unchecked) =
      (r.cur.task, r.cur.pending, r.cur.unchecked) :=
    Moves.keeps (f := fun c => (c.task, c.pending, c.unchecked))
      (fun _ _ hg => (charge_keeps hg.2).1) h
  simp only [Prod.mk.injEq] at hkeep
  obtain ⟨h1, h2, h3⟩ := hkeep
  exact ⟨h1, h2, h3, fun b =>
    Moves.keeps (f := fun c => c.sim.node? b) (fun _ _ hg => (charge_keeps hg.2).2 b) h⟩

/-! ## The interference section -/

theorem adjustFitNodes_ok {bs : List Addr} {ret : Ret}
    (h : s.adjustFitNodes bs r = .ok (ret, r')) (hint : s.useInterference = true) :
    Steps s (fun act => act.isTune = true) r r' := by
  induction bs generalizing r with
  | nil =>
      obtain ⟨-, rfl⟩ := pure_end h
      exact Moves.refl _
  | cons b bs ih =>
      unfold adjustFitNodes at h
      obtain ⟨n, hn, h⟩ := getNode_bind h
      have h := getSim_bind h
      split at h
      · obtain ⟨o, ho, h⟩ := query_bind h
        cases o with
        | none =>
            obtain ⟨-, rfl⟩ := pure_end h
            exact Moves.refl _
        | some p =>
            obtain ⟨n', lost⟩ := p
            have h := act_bind (act_bind h)
            have h1 : Steps s (fun act => act.isTune = true) r (s.did (.adjust b n') r) :=
              steps_act ⟨hint, n, hn, adjustSatNode_ok ho⟩ rfl
            exact (h1.trans (steps_act (a := .addRate lost) hint rfl)).trans (ih h)
      · obtain ⟨o, ho, h⟩ := query_bind h
        cases o with
        | none => exact ih h
        | some n' =>
            have h := act_bind h
            have h1 : Steps s (fun act => act.isTune = true) r (s.did (.adjust b n') r) :=
              steps_act ⟨hint, n, hn, adjustResNode_ok ho⟩ rfl
            exact h1.trans (ih h)

/-- With interference off the section does nothing. -/
theorem adjustFit_ok {a : Addr} {ret : Ret} (h : s.adjustFit a r = .ok (ret, r')) :
    Steps s (fun act => act.isTune = true) r r' ∧
      (s.useInterference = true ∨ (ret = .success ∧ r' = r)) := by
  unfold adjustFit at h
  split at h
  case isTrue hint =>
    obtain ⟨n, hn, h⟩ := getNode_bind h
    have h := getSim_bind h
    exact ⟨adjustFitNodes_ok h hint, Or.inl hint⟩
  case isFalse =>
    obtain ⟨rfl, rfl⟩ := pure_end h
    exact ⟨Moves.refl _, Or.inr ⟨rfl, rfl⟩⟩

/-- The ids of the tasks on a node survive the interference adjustments. -/
theorem adjust_ids {K : Action → Prop} {a : Addr} {ids : List Int} (h : Steps s K r r')
    (hK : ∀ act, K act → act.isTune = true ∨ act.isTest = true)
    (hids : ∃ n, r.cur.sim.node? a = some n ∧ n.vTaskList.map (·.id) = ids) :
    ∃ n, r'.cur.sim.node? a = some n ∧ n.vTaskList.map (·.id) = ids := by
  refine (h.strengthen (I := fun c => ∃ n, c.sim.node? a = some n ∧
    n.vTaskList.map (·.id) = ids) ?_ hids).2
  rintro c act ⟨n, hn, hid⟩ ⟨hd, hk⟩
  have hkind := hK act hk
  cases act <;> try (simp [Action.isTune, Action.isTest] at hkind)
  case adjust b n' =>
      obtain ⟨-, m, hm, hadj⟩ := hd
      simp only [Action.apply, Core.write_node?]
      split
      case isTrue hab =>
        subst hab
        obtain rfl : n = m := Option.some.inj (hn.symm.trans hm)
        exact ⟨n', by simp [hm], by rw [hadj.ids_eq, hid]⟩
      case isFalse => exact ⟨n, hn, hid⟩
  all_goals exact ⟨n, hn, hid⟩

theorem tune_frame (h : Steps s (fun act => act.isTune = true) r r') :
    r'.cur.pending = r.cur.pending ∧ r'.cur.unchecked = r.cur.unchecked ∧
      r'.cur.uncharged = r.cur.uncharged ∧ r'.cur.task.requestRate = r.cur.task.requestRate := by
  have hkeep : (r'.cur.pending, r'.cur.unchecked, r'.cur.uncharged, r'.cur.task.requestRate) =
      (r.cur.pending, r.cur.unchecked, r.cur.uncharged, r.cur.task.requestRate) := by
    refine Moves.keeps (f := fun c => (c.pending, c.unchecked, c.uncharged, c.task.requestRate))
      ?_ h
    rintro c act ⟨-, hk⟩
    cases act <;> try cases hk
    all_goals simp [Action.apply]
  simpa only [Prod.mk.injEq] using hkeep

theorem inner_frame {K : Action → Prop} (h : Steps s K r r')
    (hK : ∀ act, K act → act.isInner = true) :
    r'.cur.phase = r.cur.phase ∧ r'.cur.session = r.cur.session ∧
      r'.cur.task.id = r.cur.task.id ∧ r'.cur.task.SLO = r.cur.task.SLO := by
  have hkeep : (r'.cur.phase, r'.cur.session, r'.cur.task.id, r'.cur.task.SLO) =
      (r.cur.phase, r.cur.session, r.cur.task.id, r.cur.task.SLO) :=
    Moves.keeps (f := fun c => (c.phase, c.session, c.task.id, c.task.SLO))
      (fun c act hg => Action.inner_keeps _ c (hK act hg.2)) h
  simpa only [Prod.mk.injEq] using hkeep

/-! ## One gpu-let -/

/-- Truncation loses less than one request per second. -/
theorem toInt_sub_covers (rate : Int) (q : ℚ) : rate ≤ toInt (rate - q) + ⌊q⌋ + 1 := by
  have h1 := floor_le_toInt ((rate : ℚ) - q)
  have h2 : ((rate : ℚ) - q) < ⌊(rate : ℚ) - q⌋ + 1 := Int.lt_floor_add_one _
  have h3 : (⌊(rate : ℚ) - q⌋ : ℚ) ≤ toInt ((rate : ℚ) - q) := by exact_mod_cast h1
  have h4 : q < ⌊q⌋ + 1 := Int.lt_floor_add_one q
  have h5 : (rate : ℚ) < toInt ((rate : ℚ) - q) + ⌊q⌋ + 2 := by linarith
  have h6 : rate < toInt ((rate : ℚ) - q) + ⌊q⌋ + 2 := by exact_mod_cast h5
  omega

/-- The kinds of actions of `allocateFit` before it is done. -/
abbrev Inner (act : Action) : Prop := act.isFilling = true

theorem Inner.isInner {act : Action} (h : Inner act) : act.isInner = true := by
  cases act <;> first | rfl | cases h

theorem inner_of_tune {act : Action} (h : act.isTune = true) : Inner act := by
  cases act <;> first | rfl | cases h

theorem inner_of_charge {act : Action} (h : act.isCharge = true) : Inner act := by
  cases act <;> first | rfl | cases h

/-- `allocateFitOne` from the placement of a gpu-let on: memory, interference,
and the rate. -/
def placeFit (s : Scheduler) (a : Addr) (n : Node) (checked : Bool) : Sched Ret := do
  s.act (.fit a n checked)
  s.addGPUMemUsage a
  match ← s.adjustFit a with
  | .failure => do
      s.act .leave
      pure .failure
  | .success => do
      let node ← getNode a
      let task ← getTask
      match node.vTaskList with
      | [t] => do
          s.act (.accept a (toInt (task.requestRate - t.throughput)))
          pure .success
      | _ => query (.error .assertion)

/-- Both ends of the placement: taken back, or charged to the rate by the one
task of the node. -/
theorem placeFit_cases {a : Addr} {n : Node} {checked : Bool} {ret : Ret}
    (h : s.placeFit a n checked r = .ok (ret, r')) :
    ∃ r1 r2, s.addGPUMemUsage a (s.did (.fit a n checked) r) = .ok ((), r1) ∧
      s.adjustFit a r1 = .ok (ret, r2) ∧
      (ret = .failure ∧ r' = s.did .leave r2 ∨
        ret = .success ∧ ∃ m t, r2.cur.sim.node? a = some m ∧ m.vTaskList = [t] ∧
          r' = s.did (.accept a (toInt (r2.cur.task.requestRate - t.throughput))) r2) := by
  replace h := act_bind h
  obtain ⟨⟨⟩, r1, hmem, h⟩ := Prog.bind_ok h
  obtain ⟨ret', r2, hadj, h⟩ := Prog.bind_ok h
  cases ret' with
  | failure =>
      replace h := act_bind h
      obtain ⟨rfl, rfl⟩ := pure_end h
      exact ⟨r1, r2, hmem, hadj, Or.inl ⟨rfl, rfl⟩⟩
  | success =>
      obtain ⟨m, hm, h⟩ := getNode_bind h
      replace h := getTask_bind h
      rcases ht : m.vTaskList with _ | ⟨t, _ | ⟨t', ts⟩⟩
      case nil =>
        rw [ht] at h
        obtain ⟨b, hb, -⟩ := Prog.ask_ok h
        cases hb
      case cons.cons =>
        rw [ht] at h
        obtain ⟨b, hb, -⟩ := Prog.ask_ok h
        cases hb
      case cons.nil =>
        rw [ht] at h
        replace h := act_bind h
        obtain ⟨rfl, rfl⟩ := pure_end h
        exact ⟨r1, r2, hmem, hadj, Or.inr ⟨rfl, m, t, hm, ht, rfl⟩⟩

theorem placeFit_ok {a : Addr} {n : Node} {ret : Ret} (checked : Bool)
    (hfit : FitGuard s r.cur a n checked) (hun : r.cur.unchecked = none)
    (h : s.placeFit a n checked r = .ok (ret, r')) :
    Steps s Inner r r' ∧ Settled s r'.cur := by
  obtain ⟨r3, r4, hmem, hadj, hend⟩ := placeFit_cases h
  have h1 : Steps s Inner r (s.did (.fit a n checked) r) := steps_act hfit rfl
  obtain ⟨h2, hcharged⟩ := addGPUMemUsage_ok hmem rfl
  obtain ⟨htask2, hpend2, hunch2, hnode2⟩ := charge_frame h2
  obtain ⟨h3, hint⟩ := adjustFit_ok hadj
  obtain ⟨hpend3, hunch3, huncg3, hrate3⟩ := tune_frame h3
  have hsteps : Steps s Inner r r4 :=
    (h1.trans (h2.mono fun _ hk => inner_of_charge hk)).trans (h3.mono fun _ hk => inner_of_tune hk)
  have hpend : r4.cur.pending = some a := by rw [hpend3, hpend2]; rfl
  have hunch : r4.cur.unchecked = none := by
    rw [hunch3, hunch2]
    simpa [Action.apply] using hun
  have huncg : s.checkMem = true → r4.cur.uncharged = none := fun hc => huncg3.trans (hcharged hc)
  rcases hend with ⟨rfl, rfl⟩ | ⟨rfl, m, t, hm, ht, rfl⟩
  · have hint : s.useInterference = true := by
      rcases hint with hint | ⟨hcontra, -⟩
      · exact hint
      · cases hcontra
    exact ⟨hsteps.trans (steps_act (a := .leave) ⟨hint, huncg⟩ rfl), rfl, hunch, fun _ => rfl⟩
  · obtain ⟨m0, gpu, e, d, v, hm0, -, -, -, hlet, -⟩ := hfit.target
    have hids : ∃ k, r4.cur.sim.node? a = some k ∧ k.vTaskList.map (·.id) = [r.cur.task.id] := by
      refine adjust_ids h3 (fun _ hk => Or.inl hk) ⟨copyToNode n m0 s.useRepartition, ?_, ?_⟩
      · rw [hnode2]
        simp [Action.apply, Core.write_node?, hm0]
      · simp [copyToNode, hlet.tasks, hlet.id_eq]
    obtain ⟨k, hk, hkid⟩ := hids
    obtain rfl : m = k := Option.some.inj (hm.symm.trans hk)
    have htid : t.id = r4.cur.task.id := by
      have := (inner_frame hsteps fun _ hk => hk.isInner).2.2.1
      rw [ht] at hkid
      rw [this]
      simpa using hkid
    refine ⟨hsteps.trans (steps_act
      (a := .accept a (toInt (r4.cur.task.requestRate - t.throughput)))
      ⟨hpend, hunch, m, t, hm, ht, htid, fun _ => toInt_sub_covers _ _⟩ rfl), ?_⟩
    exact ⟨rfl, rfl, fun hc => by simpa [Action.apply, Core.setRate] using huncg hc⟩

theorem dutyOf_some {n : Node} {d : ℚ} (h : n.dutyCycle = some d) : s.dutyOf n = d := by
  simp [dutyOf, h]

/-- How `allocateFitOne` comes to place gpu-let `n` on `best`, found at `a`, and
from which record. -/
inductive FitPath (s : Scheduler) (r : Rec Core Action) (input : Node) (a : Addr) (best : Node) :
    Node → Bool → Rec Core Action → Prop
  | grow {n : Node} : best.resourcePntg ≠ 100 → best.resourcePntg > input.resourcePntg →
      s.resizeInput r.cur.sim input best.resourcePntg = .ok (some n) →
      FitPath s r input a best n false r
  | split {gpu : GPU} : best.resourcePntg = 100 → input.resourcePntg < 100 →
      s.useRepartition = true → r.cur.sim.vGPUList[best.id]? = some gpu →
      FitPath s r input a best input false (s.did (.split a input.resourcePntg) r)
  | keep : ¬ (best.resourcePntg ≠ 100 ∧ best.resourcePntg > input.resourcePntg) →
      ¬ ((best.resourcePntg = 100 ∧ input.resourcePntg < 100) ∧ s.useRepartition = true) →
      FitPath s r input a best input true r

/-- One estimated gpu-let: nothing happens, or it is placed. -/
theorem allocateFitOne_cases {input : Node} {ret : Ret}
    (h : s.allocateFitOne input r = .ok (ret, r')) :
    (ret = .failure ∧ r' = r) ∨ ∃ a best n checked r0,
      s.findBestFit r.cur.sim input [] = .ok (some a) ∧ r.cur.sim.node? a = some best ∧
        FitPath s r input a best n checked r0 ∧ s.placeFit a n checked r0 = .ok (ret, r') := by
  unfold allocateFitOne at h
  replace h := getSim_bind h
  obtain ⟨o, ho, h⟩ := query_bind h
  cases o with
  | none =>
      obtain ⟨rfl, rfl⟩ := pure_end h
      exact Or.inl ⟨rfl, rfl⟩
  | some a =>
      obtain ⟨best, hbest, h⟩ := getNode_bind h
      by_cases hgrow : best.resourcePntg ≠ 100 ∧ best.resourcePntg > input.resourcePntg
      · have hwhole : ¬ (best.resourcePntg = 100 ∧ input.resourcePntg < 100) :=
          fun h => hgrow.1 h.1
        simp only [decide_eq_true hgrow, decide_eq_false hwhole, if_true, Bool.false_and,
          Bool.false_eq_true, if_false, Bool.not_true] at h
        obtain ⟨o, hres, h⟩ := query_bind h
        cases o with
        | none =>
            obtain ⟨rfl, rfl⟩ := pure_end h
            exact Or.inl ⟨rfl, rfl⟩
        | some n =>
            exact Or.inr ⟨a, best, n, false, r, ho, hbest, .grow hgrow.1 hgrow.2 hres, h⟩
      · by_cases hsplit :
            (best.resourcePntg = 100 ∧ input.resourcePntg < 100) ∧ s.useRepartition = true
        · simp only [decide_eq_false hgrow, decide_eq_true hsplit.1, hsplit.2, Bool.and_self,
            Bool.false_eq_true, if_true, if_false, Bool.not_true, Bool.not_false,
            Bool.and_false] at h
          obtain ⟨n, r1, hpure, h⟩ := Prog.bind_ok h
          obtain ⟨rfl, rfl⟩ := pure_end hpure
          obtain ⟨gpu, hgpu, h⟩ := getGPU_bind h
          exact Or.inr ⟨a, best, _, false, _, ho, hbest,
            .split hsplit.1.1 hsplit.1.2 hsplit.2 hgpu, act_bind h⟩
        · have hno : (decide (best.resourcePntg = 100 ∧ input.resourcePntg < 100) &&
              s.useRepartition) = false := by
            rw [← Bool.not_eq_true, Bool.and_eq_true, decide_eq_true_iff]
            exact hsplit
          simp only [decide_eq_false hgrow, hno, Bool.false_eq_true, if_false, Bool.not_false,
            Bool.and_self] at h
          obtain ⟨n, r1, hpure, h⟩ := Prog.bind_ok h
          obtain ⟨rfl, rfl⟩ := pure_end hpure
          exact Or.inr ⟨a, best, _, true, _, ho, hbest, .keep hgrow hsplit, h⟩

/-- With repartitioning on, a node that is neither larger than the gpu-let nor
split has its size. -/
theorem part_eq_of_kept {best input : Node} (hpart : input.resourcePntg ≤ best.resourcePntg)
    (hgrow : ¬ (best.resourcePntg ≠ 100 ∧ best.resourcePntg > input.resourcePntg))
    (hsplit : ¬ ((best.resourcePntg = 100 ∧ input.resourcePntg < 100) ∧ s.useRepartition = true))
    (hrepart : s.useRepartition = true) : input.resourcePntg = best.resourcePntg := by
  simp only [ne_eq, not_and, not_lt, gt_iff_lt] at hgrow
  by_cases h100 : best.resourcePntg = 100
  · have : ¬ input.resourcePntg < 100 := fun hlt => hsplit ⟨⟨h100, hlt⟩, hrepart⟩
    omega
  · have := hgrow h100
    omega

/-- The node of a split that the gpu-let goes on. -/
theorem split_placed {a : Addr} {best : Node} {gpu : GPU} (part : Int)
    (hn : r.cur.sim.node? a = some best) (hgpu : r.cur.sim.vGPUList[best.id]? = some gpu) :
    (s.did (.split a part) r).cur.sim.node? a = some { best with resourcePntg := part } := by
  rw [Prog.after_cur, split_node? hn hgpu, if_neg, if_pos rfl]
  rintro rfl
  rw [SimState.node?_length hgpu] at hn
  cases hn

theorem allocateFitOne_ok {input : Node} {ret : Ret}
    (hin : Estimated s r.cur.task.id r.cur.task.SLO input) (hset : Settled s r.cur)
    (h : s.allocateFitOne input r = .ok (ret, r')) :
    Steps s Inner r r' ∧ Settled s r'.cur := by
  rcases allocateFitOne_cases h with ⟨-, rfl⟩ | ⟨a, best, n, checked, r0, ho, hbest, hpath, h⟩
  · exact ⟨Moves.refl _, hset⟩
  obtain ⟨gpu, m, task, w, hgpu, hm, htype, hpart, hempty, htask, hw, hslo⟩ := findBestFit_ok ho
  obtain rfl : best = m := Option.some.inj (hbest.symm.trans hm)
  have ⟨hprof, e, d, v, hlet⟩ := hin
  cases hpath with
  | grow hless hmore hres =>
      obtain ⟨hnpart, hntype, e', d', v', hlet'⟩ := resizeInput_ok hin hres
      refine placeFit_ok false ⟨hset.pending, hset.uncharged, best, gpu, e', d', v',
        hm, hempty, hgpu, htype.trans hntype.symm, hlet', fun _ => hnpart, fun _ => hnpart,
        fun hc => ?_⟩ hset.unchecked h
      cases hc
  | @split gpu' hwhole hless hrepart hgpu' =>
      have hd : Detail s r.cur (.split a input.resourcePntg) :=
        ⟨best, gpu', hm, hempty, hwhole, hless, hprof, hgpu'⟩
      have hstep : Steps s Inner r (s.did (.split a input.resourcePntg) r) := steps_act hd rfl
      have hcur : (s.did (.split a input.resourcePntg) r).cur.task = r.cur.task ∧
          (s.did (.split a input.resourcePntg) r).cur.pending = r.cur.pending ∧
          (s.did (.split a input.resourcePntg) r).cur.uncharged = r.cur.uncharged ∧
          (s.did (.split a input.resourcePntg) r).cur.unchecked = r.cur.unchecked := by
        simp [Action.apply, hm]
      obtain ⟨htsk, hpend, huncg, hunch⟩ := hcur
      have hnode : (s.did (.split a input.resourcePntg) r).cur.sim.node? a = _ :=
        split_placed input.resourcePntg hm hgpu'
      obtain ⟨g2, hg2, hg2type⟩ : ∃ g2,
          (s.did (.split a input.resourcePntg) r).cur.sim.vGPUList[a.gpu]? = some g2 ∧
            g2.TYPE = gpu.TYPE := by
        simp only [Prog.after_cur, Action.apply, hm, SimState.pushNode, SimState.setNode,
          SimState.getElem?_modifyGPU, hgpu]
        split <;> simp
      have htail := placeFit_ok false ⟨by rw [hpend]; exact hset.pending,
        fun hc => by rw [huncg]; exact hset.uncharged hc,
        { best with resourcePntg := input.resourcePntg }, g2, e, d, v, hnode, hempty, hg2,
        hg2type.trans htype, by rw [htsk]; exact hlet, fun _ => rfl, fun _ => rfl,
        fun hc => by cases hc⟩ (by rw [hunch]; exact hset.unchecked) h
      exact ⟨hstep.trans htail.1, htail.2⟩
  | keep hgrow hsplit =>
      have htask' : task = e := by
        have := htask.symm.trans hlet.tasks
        simpa using this
      subst htask'
      rw [dutyOf_some hlet.duty] at hslo
      refine placeFit_ok true ⟨hset.pending, hset.uncharged, best, gpu, task, d, v, hm,
        hempty, hgpu, htype, hlet, part_eq_of_kept hpart hgrow hsplit, fun hc => ?_,
        fun _ => ⟨w, hw, hslo⟩⟩ hset.unchecked h
      cases hc

/-! ## The whole estimate -/

theorem allocateFit_ok {inputs : List Node} {ret : Ret}
    (hin : ∀ n ∈ inputs, Estimated s r.cur.task.id r.cur.task.SLO n) (hset : Settled s r.cur)
    (h : s.allocateFit inputs r = .ok (ret, r')) :
    ∃ r1, Steps s Inner r r1 ∧ Settled s r1.cur ∧
      ((ret = .failure ∧ r' = r1) ∨ (ret = .success ∧ r' = s.did .finish r1 ∧
        r1.cur.task.requestRate + r1.cur.task.additionalRate ≤ trpSlack)) := by
  induction inputs generalizing r with
  | nil =>
      unfold allocateFit at h
      replace h := getTask_bind h
      split at h
      · obtain ⟨rfl, rfl⟩ := pure_end h
        exact ⟨_, Moves.refl _, hset, Or.inl ⟨rfl, rfl⟩⟩
      case isFalse hle =>
        replace h := act_bind h
        obtain ⟨rfl, rfl⟩ := pure_end h
        exact ⟨r, Moves.refl _, hset, Or.inr ⟨rfl, rfl, not_lt.mp hle⟩⟩
  | cons n ns ih =>
      unfold allocateFit at h
      obtain ⟨ret1, r1, h1, h⟩ := Prog.bind_ok h
      obtain ⟨hsteps, hset1⟩ := allocateFitOne_ok (hin n (List.mem_cons_self ..)) hset h1
      cases ret1 with
      | failure =>
          obtain ⟨rfl, rfl⟩ := pure_end h
          exact ⟨_, hsteps, hset1, Or.inl ⟨rfl, rfl⟩⟩
      | success =>
          obtain ⟨-, -, hid, hslo⟩ := inner_frame hsteps fun _ hk => hk.isInner
          have hin' : ∀ m ∈ ns, Estimated s r1.cur.task.id r1.cur.task.SLO m := by
            intro m hm
            rw [hid, hslo]
            exact hin m (List.mem_cons_of_mem _ hm)
          obtain ⟨r2, hsteps2, hset2, hend⟩ := ih hin' hset1 h
          exact ⟨r2, hsteps.trans hsteps2, hset2, hend⟩

end Scheduler

end Glet
