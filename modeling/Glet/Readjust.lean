import Glet.AllocateFit

/-!
# The writes of `readjust`

Both loops of `readjust` work through the nodes they were given; the
invariant is that what is left of the list are distinct empty nodes
(`Free`) and that no placement is half done (`Settled`). One turn fills one
node at most (`Turn`), so the others stay empty.
-/

namespace Glet

open Recorder

namespace Scheduler

variable {s : Scheduler} {r r' : Rec Core Action} {table : SatTable} {a : Addr}

/-- Actions of a turn of `readjust` on node `a`. -/
def Turn (a : Addr) (act : Action) : Prop :=
  act.isReadjust = true ∧ ∀ b, act.fills = some b → b = a

abbrev Readjusts (act : Action) : Prop := act.isReadjust = true

theorem inner_of_readjusts {act : Action} (h : Readjusts act) : Inner act := by
  cases act <;> first | rfl | cases h

theorem turn_of_charge {act : Action} (h : act.isCharge = true) : Turn a act := by
  cases act <;> try cases h
  all_goals exact ⟨rfl, fun b hb => by cases hb⟩

theorem turn_of_test {act : Action} (h : act.isTest = true) : Turn a act := by
  cases act <;> try cases h
  all_goals exact ⟨rfl, fun b hb => by cases hb⟩

/-! ## Keeping or taking back a placement -/

theorem adjustOtherNodes_ok {new : Node} {bs : List Addr} {revert revert' : Bool}
    (h : s.adjustOtherNodes new bs revert r = .ok (revert', r')) (hint : s.useInterference = true) :
    Steps s (fun act => ∃ b n, act = .adjust b n) r r' ∧ (revert = true → revert' = true) := by
  induction bs generalizing r revert with
  | nil =>
      obtain ⟨rfl, rfl⟩ := pure_end h
      exact ⟨Moves.refl _, fun h => h⟩
  | cons b bs ih =>
      unfold adjustOtherNodes at h
      obtain ⟨n, hn, h⟩ := getNode_bind h
      replace h := getSim_bind h
      split at h
      · exact ih h
      · split at h
        · obtain ⟨o, ho, h⟩ := query_bind h
          cases o with
          | none =>
              obtain ⟨rfl, rfl⟩ := pure_end h
              exact ⟨Moves.refl _, fun _ => rfl⟩
          | some p =>
              obtain ⟨n', lost⟩ := p
              replace h := act_bind h
              obtain ⟨hsteps, hrev⟩ := ih h
              have hadj := adjustSatNode_ok ho
              refine ⟨Moves.trans (steps_act (a := .adjust b _) ⟨hint, n, hn, ?_⟩ ⟨b, _, rfl⟩) hsteps,
                hrev⟩
              refine ⟨hadj.id_eq, hadj.part_eq, hadj.dedup_eq, hadj.type_eq, ?_, hadj.duty_set, ?_⟩
              · simpa [List.map_map, Function.comp_def] using hadj.ids_eq
              · intro hpos hsound
                rcases hadj.sound hpos hsound with hnil | ⟨d, hd, hd0, hthr⟩
                · exact Or.inl (by simp [hnil])
                · refine Or.inr ⟨d, hd, hd0, ?_⟩
                  intro t ht
                  obtain ⟨t0, ht0, rfl⟩ := List.mem_map.mp ht
                  exact hthr t0 ht0
        · obtain ⟨o, ho, h⟩ := query_bind h
          cases o with
          | none =>
              obtain ⟨hsteps, hrev⟩ := ih h
              exact ⟨hsteps, fun _ => hrev rfl⟩
          | some n' =>
              replace h := act_bind h
              obtain ⟨hsteps, hrev⟩ := ih h
              exact ⟨Moves.trans (steps_act (a := .adjust b n') ⟨hint, n, hn, adjustResNode_ok ho⟩
                ⟨b, n', rfl⟩) hsteps, hrev⟩

theorem test_frame {K : Action → Prop} (h : Steps s K r r')
    (hK : ∀ act, K act → act.isTest = true) :
    r'.cur.pending = r.cur.pending ∧ r'.cur.uncharged = r.cur.uncharged := by
  have hkeep : (r'.cur.pending, r'.cur.uncharged) = (r.cur.pending, r.cur.uncharged) := by
    refine Moves.keeps (f := fun c => (c.pending, c.uncharged)) ?_ h
    rintro c act ⟨-, hk⟩
    have hkind := hK act hk
    cases act <;> try cases hkind
    all_goals simp [Action.apply]
  simpa only [Prod.mk.injEq] using hkeep

/-- The test leaves no other gpu-let unchecked. -/
theorem test_unchecked (h : Steps s (fun act => act.isTest = true) r r')
    (hun : r.cur.unchecked = some a) : r'.cur.unchecked = none ∨ r'.cur.unchecked = some a := by
  refine (h.strengthen (I := fun c => c.unchecked = none ∨ c.unchecked = some a) ?_
    (Or.inr hun)).2
  rintro c act hc ⟨-, hk⟩
  cases act <;> try cases hk
  case bandwidthOK => exact Or.inl rfl
  all_goals simpa [Action.apply] using hc

/-- `checkNeedtoRevert`: what it says when it lets the gpu-let stay, and that
it does nothing but the bandwidth test when interference is off. -/
theorem checkNeedtoRevert_ok {revert : Bool} (h : s.checkNeedtoRevert a r = .ok (revert, r'))
    (hun : r.cur.unchecked = some a) :
    Steps s (fun act => act.isTest = true) r r' ∧
      (revert = false → r'.cur.unchecked = none) ∧
      (s.useInterference = false → r'.cur.sim = r.cur.sim ∧ r'.cur.task = r.cur.task) := by
  unfold checkNeedtoRevert at h
  obtain ⟨n, hn, h⟩ := getNode_bind h
  obtain ⟨gpu, hgpu, h⟩ := getGPU_bind h
  have key : ∀ (exceeded : Bool) (r1 : Rec Core Action),
      Steps s (fun act => act.isTest = true) r r1 → (exceeded = false → r1.cur.unchecked = none) →
      (r1.cur.sim = r.cur.sim ∧ r1.cur.task = r.cur.task) →
      (if s.useInterference = true then do
        let sim ← getSim
        let revert ← s.adjustOtherNodes n (gpuAddrs sim n.id) exceeded
        if revert = true then pure () else s.act .absorb
        pure revert
      else pure exceeded : Sched Bool) r1 = .ok (revert, r') →
      Steps s (fun act => act.isTest = true) r r' ∧
        (revert = false → r'.cur.unchecked = none) ∧
        (s.useInterference = false → r'.cur.sim = r.cur.sim ∧ r'.cur.task = r.cur.task) := by
    intro exceeded r1 h1 hexceeded hsame hk
    split at hk
    case isFalse hint =>
      obtain ⟨rfl, rfl⟩ := pure_end hk
      exact ⟨h1, hexceeded, fun _ => hsame⟩
    case isTrue hint =>
      replace hk := getSim_bind hk
      obtain ⟨rev, r2, hadj, hk⟩ := Prog.bind_ok hk
      obtain ⟨h2, hrev⟩ := adjustOtherNodes_ok hadj hint
      have h2' : Steps s (fun act => act.isTest = true) r1 r2 :=
        h2.mono fun act ⟨_, _, hact⟩ => by rw [hact]; rfl
      have hun2 : r2.cur.unchecked = r1.cur.unchecked := by
        refine Moves.keeps (f := fun c => c.unchecked) ?_ h2
        rintro c act ⟨-, b, m, rfl⟩
        simp [Action.apply]
      refine ⟨?_, ?_, fun hoff => absurd hint (by simp [hoff])⟩
      · cases rev with
        | true =>
            obtain ⟨-, rfl⟩ := pure_end hk
            exact h1.trans h2'
        | false =>
            replace hk := act_bind hk
            obtain ⟨-, rfl⟩ := pure_end hk
            exact (h1.trans h2').trans (steps_act (a := .absorb) hint rfl)
      · intro hfalse
        cases rev with
        | true =>
            obtain ⟨rfl, -⟩ := pure_end hk
            cases hfalse
        | false =>
            replace hk := act_bind hk
            obtain ⟨-, rfl⟩ := pure_end hk
            cases exceeded with
            | true => cases hrev rfl
            | false => exact hun2.trans (hexceeded rfl)
  dsimp only at h
  cases hexceeded : (s.checkNetBW && s.isNLCInitated && !s.isBandwidthOK gpu) with
  | true =>
      rw [hexceeded] at h
      exact key true r (Moves.refl _) (fun hc => by cases hc) ⟨rfl, rfl⟩ h
  | false =>
      rw [hexceeded] at h
      replace h := act_bind h
      refine key false _ (steps_act (a := .bandwidthOK a) ⟨hun, n, gpu, hn, hgpu, ?_⟩ rfl)
        (fun _ => rfl) ⟨rfl, rfl⟩ h
      intro hbw hnlc
      simpa [hbw, hnlc] using hexceeded

/-- The gpu-let just placed on `a` is kept or taken back. -/
theorem settle_ok {t : Task} {n : Node} {remaining : Int → ℚ → Int} {u : Unit}
    (h : s.settle a t remaining r = .ok (u, r')) (hpend : r.cur.pending = some a)
    (hun : r.cur.unchecked = some a) (huncg : r.cur.uncharged = some a)
    (hn : r.cur.sim.node? a = some n) (hts : n.vTaskList = [t]) (hid : t.id = r.cur.task.id)
    (hrem : ∀ rate, rate ≤ remaining rate t.throughput + ⌊t.throughput⌋ + 1) :
    Steps s (Turn a) r r' ∧ Settled s r'.cur := by
  unfold settle at h
  obtain ⟨rev, r1, hrev, h⟩ := Prog.bind_ok h
  obtain ⟨h1, hun1, hoff⟩ := checkNeedtoRevert_ok hrev hun
  obtain ⟨hpend1, huncg1⟩ := test_frame h1 fun _ hk => hk
  have h1t : Steps s (Turn a) r r1 := h1.mono fun _ hk => turn_of_test hk
  have hid1 : r1.cur.task.id = r.cur.task.id :=
    (inner_frame h1 fun act hk => by cases act <;> first | rfl | cases hk).2.2.1
  have hold : n.vTaskList.map (·.id) = [r.cur.task.id] := by simp [hts, hid]
  obtain ⟨m, hm, hmid⟩ := adjust_ids h1 (fun _ hk => Or.inr hk) ⟨n, hn, hold⟩
  rw [← hid1] at hmid
  cases rev with
  | true =>
      obtain ⟨m', hm', h⟩ := getNode_bind h
      obtain ⟨-, -, h⟩ := query_bind h
      obtain rfl := act_end h
      refine ⟨h1t.trans (steps_act (a := .revert a)
        ⟨hpend1.trans hpend, test_unchecked h1 hun, huncg1.trans huncg, m, hm, hmid⟩
        ⟨rfl, fun b hb => by cases hb⟩), rfl, rfl, fun _ => rfl⟩
  | false =>
      obtain ⟨⟨⟩, r2, hmem, h⟩ := Prog.bind_ok h
      obtain ⟨h2, hcharged⟩ := addGPUMemUsage_ok hmem (huncg1.trans huncg)
      obtain ⟨htask2, hpend2, hunch2, hnode2⟩ := charge_frame h2
      replace h := getTask_bind h
      obtain rfl := act_end h
      obtain ⟨e, he⟩ : ∃ e, m.vTaskList = [e] := by
        rcases hml : m.vTaskList with _ | ⟨e, _ | ⟨e', es⟩⟩
        · simp [hml] at hmid
        · exact ⟨e, rfl⟩
        · simp [hml] at hmid
      have heid : e.id = r2.cur.task.id := by
        rw [htask2]
        simpa [he] using hmid
      have hsteps : Steps s (Turn a) r r2 := h1t.trans (h2.mono fun _ hk => turn_of_charge hk)
      have hacc : Detail s r2.cur (.accept a (remaining r2.cur.task.requestRate t.throughput)) := by
        refine ⟨hpend2.trans (hpend1.trans hpend), hunch2.trans (hun1 rfl), m, e,
          (hnode2 a).trans hm, he, heid, ?_⟩
        intro hno
        have hsim := (hoff hno).1
        rw [hsim] at hm
        obtain rfl : n = m := Option.some.inj (hn.symm.trans hm)
        obtain rfl : t = e := by simpa using hts.symm.trans he
        exact hrem _
      refine ⟨hsteps.trans (steps_act hacc ⟨rfl, fun b hb => by cases hb⟩), rfl, rfl, ?_⟩
      intro hc
      simpa [Action.apply, Core.setRate] using hcharged hc

/-! ## Splitting a given node -/

theorem first_or_head_mem {given : List Addr} (p : Addr → Bool)
    (h : (match given.find? p with
      | some a => return a
      | none => match given with
          | a :: _ => return a
          | [] => .error .badAccess : Query Addr) = .ok a) : a ∈ given := by
  split at h
  case h_1 b hb =>
    obtain rfl := Query.pure_ok.mp h
    exact List.mem_of_find?_eq_some hb
  case h_2 =>
    split at h
    · obtain rfl := Query.pure_ok.mp h
      exact List.mem_cons_self ..
    · cases h

theorem chooseNode_mem {task : Task} {sim : SimState} {given : List Addr}
    (h : s.chooseNode table task sim given = .ok a) : a ∈ given := by
  unfold chooseNode at h
  dsimp only at h
  by_cases hprio : s.priorityCheck = true
  · rw [if_pos hprio] at h
    obtain ⟨type, -, h⟩ := Query.bind_ok.mp h
    obtain ⟨-, -, h⟩ := Query.bind_ok.mp h
    obtain ⟨-, -, h⟩ := Query.bind_ok.mp h
    exact first_or_head_mem _ h
  · rw [if_neg hprio] at h
    obtain ⟨type, -, h⟩ := Query.bind_ok.mp h
    obtain ⟨-, -, h⟩ := Query.bind_ok.mp h
    obtain ⟨-, -, h⟩ := Query.bind_ok.mp h
    exact first_or_head_mem _ h

/-- Splits only. -/
abbrev Splits (act : Action) : Prop := ∃ b p, act = .split b p

theorem turn_of_splits {act : Action} (h : Splits act) : Turn a act := by
  obtain ⟨b, p, rfl⟩ := h
  exact ⟨rfl, fun b hb => by cases hb⟩

/-- A split touches neither the task nor the state of a placement. -/
theorem split_frame (h : Steps s Splits r r') :
    r'.cur.task = r.cur.task ∧ r'.cur.pending = r.cur.pending ∧
      r'.cur.unchecked = r.cur.unchecked ∧ r'.cur.uncharged = r.cur.uncharged := by
  have hkeep : (r'.cur.task, r'.cur.pending, r'.cur.unchecked, r'.cur.uncharged) =
      (r.cur.task, r.cur.pending, r.cur.unchecked, r.cur.uncharged) := by
    refine Moves.keeps (f := fun c => (c.task, c.pending, c.unchecked, c.uncharged)) ?_ h
    rintro c act ⟨-, b, p, rfl⟩
    simp only [Action.apply]
    split <;> rfl
  simpa only [Prod.mk.injEq] using hkeep

theorem Settled.split (hset : Settled s r.cur) (h : Steps s Splits r r') : Settled s r'.cur := by
  obtain ⟨-, h1, h2, h3⟩ := split_frame h
  exact ⟨h1.trans hset.pending, h2.trans hset.unchecked, fun hc => h3.trans (hset.uncharged hc)⟩

theorem sortNodes_perm (sim : SimState) (given : List Addr) :
    (s.sortNodes sim given).Perm given :=
  s.stdSort.perm _ _

/-- After a possible split the given nodes are still free, the new one
included, and the batch size is one the estimate found. -/
theorem splitGiven_ok {given given' : List Addr} {n : Node} {batch : Int} (htab : TableOK s table)
    (hfree : Free r.cur.sim given) (ha : a ∈ given) (hn : r.cur.sim.node? a = some n)
    (h100 : n.resourcePntg = 100) (h : s.splitGiven table a given r = .ok ((batch, given'), r')) :
    Steps s Splits r r' ∧ Free r'.cur.sim given' ∧ a ∈ given' ∧ 1 ≤ batch ∧ batch ≤ maxBatch := by
  unfold splitGiven at h
  replace h := getTask_bind h
  obtain ⟨n', hn', h⟩ := getNode_bind h
  obtain rfl : n = n' := Option.some.inj (hn.symm.trans hn')
  obtain ⟨es, hes, h⟩ := query_bind h
  cases es with
  | nil =>
      obtain ⟨b, hb, -⟩ := Prog.ask_ok h
      cases hb
  | cons first rest =>
      obtain ⟨hprof, e, d, v, hlet⟩ := estimate_ok htab hes first (List.mem_cons_self ..)
      simp only [hlet.tasks] at h
      split at h
      case isFalse =>
        obtain ⟨heq, rfl⟩ := pure_end h
        obtain ⟨rfl, rfl⟩ := Prod.mk.injEq .. |>.mp heq
        exact ⟨Moves.refl _, hfree, ha, hlet.batch_pos, hlet.batch_le⟩
      case isTrue hlt =>
        obtain ⟨gpu, hgpu, h⟩ := getGPU_bind h
        replace h := act_bind h
        replace h := getSim_bind h
        obtain ⟨heq, rfl⟩ := pure_end h
        obtain ⟨rfl, rfl⟩ := Prod.mk.injEq .. |>.mp heq
        obtain ⟨m, hm, hmnil⟩ := hfree.2 a ha
        obtain rfl : n = m := Option.some.inj (hn.symm.trans hm)
        have hd : Detail s r.cur (.split a first.resourcePntg) :=
          ⟨n, gpu, hn, hmnil, h100, hlt, hprof, hgpu⟩
        have hstep : Steps s Splits r (s.did (.split a first.resourcePntg) r) :=
          steps_act hd ⟨_, _, rfl⟩
        have hnew : Free (s.did (.split a first.resourcePntg) r).cur.sim
            (given ++ [⟨n.id, gpu.vNodeList.length⟩]) := by
          refine ⟨?_, ?_⟩
          · refine List.nodup_append.mpr ⟨hfree.1, List.nodup_singleton _, ?_⟩
            intro b hb c hc hbc
            obtain rfl := List.mem_singleton.mp hc
            obtain ⟨m, hm, -⟩ := hfree.2 b hb
            rw [hbc, SimState.node?_length hgpu] at hm
            cases hm
          · intro b hb
            rcases List.mem_append.mp hb with hb | hb
            · exact (hfree.2 b hb).apply hd rfl (by simp [Action.fills])
            · obtain rfl := List.mem_singleton.mp hb
              exact ⟨_, by rw [Prog.after_cur, split_node? hn hgpu, if_pos rfl], rfl⟩
        have hperm : ∀ l : List Addr, (l.take 1 ++
            s.sortNodes (s.did (.split a first.resourcePntg) r).cur.sim (l.drop 1)).Perm l := by
          intro l
          refine ((sortNodes_perm _ _).append_left _).trans ?_
          rw [List.take_append_drop]
        exact ⟨hstep, hnew.perm (hperm _),
          (hperm _).mem_iff.mpr (List.mem_append.mpr (Or.inl ha)), hlet.batch_pos, hlet.batch_le⟩

/-! ## The saturate loop -/

theorem saturateBatch_ok {given given' : List Addr} {batch : Int} (htab : TableOK s table)
    (hfree : Free r.cur.sim given) (ha : a ∈ given)
    (h : s.saturateBatch table a given r = .ok ((batch, given'), r')) :
    Steps s Splits r r' ∧ Free r'.cur.sim given' ∧ a ∈ given' ∧ 1 ≤ batch ∧ batch ≤ maxBatch := by
  unfold saturateBatch at h
  obtain ⟨n, hn, h⟩ := getNode_bind h
  split at h
  case isTrue hcond => exact splitGiven_ok htab hfree ha hn hcond.1 h
  case isFalse =>
    replace h := getTask_bind h
    replace h := getSim_bind h
    obtain ⟨⟨b, req⟩, hb, h⟩ := query_bind h
    obtain ⟨heq, rfl⟩ := pure_end h
    obtain ⟨rfl, rfl⟩ := Prod.mk.injEq .. |>.mp heq
    obtain ⟨hlo, hhi⟩ := (getMaxBatch_ok hb).le_maxBatch
    refine ⟨Moves.refl _, hfree, ha, ?_, ?_⟩
    · split <;> omega
    · split
      · decide
      · exact hhi

/-- A gpu-let is placed on an empty node, and kept or taken back. -/
theorem place_settle_ok {kind : Kind} {t : Task} {n : Node} {duty occ : ℚ}
    {remaining : Int → ℚ → Int} {u : Unit} (hguard : PlaceGuard s r.cur a kind t duty)
    (hn : r.cur.sim.node? a = some n) (hnil : n.vTaskList = [])
    (h : s.settle a t remaining (s.did (.place a kind t duty occ) r) = .ok (u, r'))
    (hrem : ∀ rate, rate ≤ remaining rate t.throughput + ⌊t.throughput⌋ + 1) :
    Steps s (Turn a) r r' ∧ Settled s r'.cur := by
  have hplace : Steps s (Turn a) r (s.did (.place a kind t duty occ) r) :=
    steps_act hguard ⟨rfl, fun b hb => (Option.some.inj hb).symm⟩
  have hnode : (s.did (.place a kind t duty occ) r).cur.sim.node? a =
      some { n with vTaskList := [t], dutyCycle := some duty, occupancy := occ } := by
    simp [Action.apply, Core.write_node?, hn, hnil]
  obtain ⟨hsteps, hset⟩ := settle_ok h rfl rfl rfl hnode rfl
    (by simpa [Action.apply] using hguard.id_eq) hrem
  exact ⟨hplace.trans hsteps, hset⟩

theorem placeSaturated_ok {n : Node} {batch : Int} {latency : ℚ} {o : Option Unit}
    (hn : r.cur.sim.node? a = some n) (hempty : n.vTaskList = []) (hset : Settled s r.cur)
    (hlo : 1 ≤ batch) (hhi : batch ≤ maxBatch)
    (hlat : s.getLatencyOn n.type r.cur.task.id batch n r.cur.sim = .ok latency)
    (hne : latency ≠ 0)
    (h : s.placeSaturated a batch latency (batch * (1000 / latency)) r = .ok (o, r')) :
    Steps s (Turn a) r r' ∧ Settled s r'.cur := by
  unfold placeSaturated at h
  replace h := getTask_bind h
  obtain ⟨n', hn', h⟩ := getNode_bind h
  obtain rfl : n = n' := Option.some.inj (hn.symm.trans hn')
  obtain ⟨gpu, hgpu, h⟩ := getGPU_bind h
  obtain ⟨ot, hot, h⟩ := query_bind h
  cases ot with
  | none =>
      obtain ⟨-, rfl⟩ := pure_end h
      exact ⟨Moves.refl _, hset⟩
  | some t =>
      have hscale := limitToNetBW_ok hlo hot
      obtain ⟨fits, -, h⟩ := query_bind h
      cases fits with
      | false =>
          obtain ⟨-, rfl⟩ := pure_end h
          exact ⟨Moves.refl _, hset⟩
      | true =>
          replace h := act_bind h
          obtain ⟨⟨⟩, r1, hsettle, h⟩ := Prog.bind_ok h
          obtain ⟨-, rfl⟩ := pure_end h
          have hguard : PlaceGuard s r.cur a .saturated t latency :=
            { settled := hset.pending, unchecked := hset.unchecked, charged := hset.uncharged
              id_eq := hscale.id_eq, SLO_eq := hscale.SLO_eq
              rate_duty := hscale.rate_duty (by
                simp only [createNewTask]
                field_simp)
              positive := fun hpos => by
                have hlpos := getLatencyOn_pos hpos hlat
                have hb : (0 : ℚ) ≤ batch := by exact_mod_cast (by omega : 0 ≤ batch)
                refine ⟨hscale.throughput_nonneg ?_, hlpos⟩
                simp only [createNewTask]
                positivity
              target := ⟨n, batch, latency, hn, hempty, hscale.batch_pos, hscale.batch_le, hhi,
                fun hs => by rw [hscale.id_eq]; exact getLatencyOn_solo hs hlat, .saturated rfl⟩ }
          exact place_settle_ok hguard hn hempty hsettle fun rate => toInt_sub_covers rate _

/-- What a turn on `a` leaves of the given nodes. -/
theorem Free.turn {given : List Addr} (hfree : Free r.cur.sim given) (h : Steps s (Turn a) r r') :
    Free r'.cur.sim (given.erase a) :=
  h.free (fun _ hk => (inner_of_readjusts hk.1).isInner) (fun _ b hk hb => hk.2 b hb) (hfree.erase a)
    hfree.1.not_mem_erase

/-- A turn of the saturate loop that placed its gpu-let, or failed to. -/
theorem saturateTurn_ok {given given1 : List Addr} {batch : Int} {n : Node} {latency : ℚ}
    {o : Option Unit} {r1 r2 : Rec Core Action} (htab : TableOK s table)
    (hfree : Free r.cur.sim given) (hset : Settled s r.cur)
    (ha : s.chooseNode table r.cur.task r.cur.sim given = .ok a)
    (hbatch : s.saturateBatch table a given r = .ok ((batch, given1), r1))
    (hn : r1.cur.sim.node? a = some n)
    (hlat : s.getLatencyOn n.type r.cur.task.id batch n r1.cur.sim = .ok latency)
    (hne : latency ≠ 0)
    (hplace : s.placeSaturated a batch latency (batch * (1000 / latency)) r1 = .ok (o, r2)) :
    Steps s Readjusts r r2 ∧ Free r2.cur.sim (given1.erase a) ∧ Settled s r2.cur := by
  obtain ⟨hsplit, hfree1, ha1, hlo, hhi⟩ :=
    saturateBatch_ok htab hfree (chooseNode_mem ha) hbatch
  obtain ⟨m, hm, hmnil⟩ := hfree1.2 a ha1
  obtain rfl : n = m := Option.some.inj (hn.symm.trans hm)
  rw [← (split_frame hsplit).1] at hlat
  obtain ⟨hturn, hset2⟩ :=
    placeSaturated_ok hn hmnil (Settled.split hset hsplit) hlo hhi hlat hne hplace
  exact ⟨(hsplit.mono fun _ hk => (turn_of_splits (a := a) hk).1).trans
    (hturn.mono fun _ hk => hk.1), Free.turn hfree1 hturn, hset2⟩

theorem saturateLoop_ok {fuel : Nat} {given : List Addr} {e : LoopEnd} (htab : TableOK s table)
    (hfree : Free r.cur.sim given) (hset : Settled s r.cur)
    (h : s.saturateLoop table fuel given r = .ok (e, r')) :
    Steps s Readjusts r r' ∧ Settled s r'.cur ∧
      ∀ given', e = .toResidue given' → Free r'.cur.sim given' := by
  induction fuel generalizing r given with
  | zero =>
      unfold saturateLoop at h
      obtain ⟨b, hb, -⟩ := Prog.ask_ok h
      cases hb
  | succ fuel ih =>
      unfold saturateLoop at h
      replace h := getTask_bind h
      split at h
      case isTrue =>
        obtain ⟨rfl, rfl⟩ := pure_end h
        exact ⟨Moves.refl _, hset, fun _ hc => by cases hc⟩
      case isFalse =>
        replace h := getSim_bind h
        obtain ⟨a, ha, h⟩ := query_bind h
        obtain ⟨⟨batch, given1⟩, r1, hbatch, h⟩ := Prog.bind_ok h
        obtain ⟨n, hn, h⟩ := getNode_bind h
        replace h := getSim_bind h
        obtain ⟨latency, hlat, h⟩ := query_bind h
        obtain ⟨period, hper, h⟩ := query_bind h
        obtain ⟨hne, rfl⟩ := fdiv_ok.mp hper
        split at h
        case isTrue =>
          obtain ⟨rfl, rfl⟩ := pure_end h
          obtain ⟨hsplit, hfree1, -⟩ := saturateBatch_ok htab hfree (chooseNode_mem ha) hbatch
          refine ⟨hsplit.mono fun _ hk => (turn_of_splits (a := a) hk).1,
            Settled.split hset hsplit, fun given' hg => ?_⟩
          obtain rfl := LoopEnd.toResidue.inj hg
          exact hfree1
        case isFalse =>
          obtain ⟨o, r2, hplace, h⟩ := Prog.bind_ok h
          obtain ⟨hsteps, hfree2, hset2⟩ :=
            saturateTurn_ok htab hfree hset ha hbatch hn hlat hne hplace
          cases o with
          | none =>
              obtain ⟨rfl, rfl⟩ := pure_end h
              exact ⟨hsteps, hset2, fun _ hc => by cases hc⟩
          | some u =>
              obtain ⟨h1, h2, h3⟩ := ih hfree2 hset2 h
              exact ⟨hsteps.trans h1, h2, h3⟩

/-! ## The residue loop -/

theorem splitResidue_ok {given given' : List Addr} (htab : TableOK s table)
    (hfree : Free r.cur.sim given) (ha : a ∈ given)
    (h : s.splitResidue table a given r = .ok (given', r')) :
    Steps s Splits r r' ∧ Free r'.cur.sim given' ∧ a ∈ given' := by
  unfold splitResidue at h
  obtain ⟨n, hn, h⟩ := getNode_bind h
  split at h
  case isTrue hcond =>
    obtain ⟨⟨batch, given1⟩, r1, hsplit, h⟩ := Prog.bind_ok h
    obtain ⟨rfl, rfl⟩ := pure_end h
    obtain ⟨h1, h2, h3, -⟩ := splitGiven_ok htab hfree ha hn hcond.1 hsplit
    exact ⟨h1, h2, h3⟩
  case isFalse =>
    obtain ⟨rfl, rfl⟩ := pure_end h
    exact ⟨Moves.refl _, hfree, ha⟩

theorem remaining_covers (rate : Int) (q : ℚ) :
    rate ≤ (if q ≤ rate then toInt (rate - q) else 0) + ⌊q⌋ + 1 := by
  split
  · exact toInt_sub_covers rate q
  case isFalse h =>
    have h1 : (rate : ℚ) < ⌊q⌋ + 1 := lt_trans (not_le.mp h) (Int.lt_floor_add_one q)
    have h2 : rate < ⌊q⌋ + 1 := by exact_mod_cast h1
    omega

/-- The latency the batch-size search looked at, and its test. -/
theorem MaxBatch.residue {id SLO req batch rate : Int} {node : Node} {sim : SimState}
    (h : MaxBatch s id SLO node sim req true true batch rate) (hb : batch ≠ 0) :
    1 ≤ batch ∧ batch ≤ maxBatch ∧ ∃ v, s.getLatencyOn node.type id batch node sim = .ok v ∧
      (v + 1000 * batch / rate ≤ SLO ∨ batch = 1) := by
  cases h with
  | none => exact absurd rfl hb
  | @corner v _ _ hv =>
      exact ⟨le_rfl, by decide, v, by simpa [latencyFor] using hv, Or.inr rfl⟩
  | @found _ v h1 h2 hv hfit =>
      have hfit := residueFits_iff.mp (by simpa [batchFits] using hfit)
      exact ⟨h1, h2, v, by simpa [latencyFor] using hv, Or.inl hfit.2⟩

/-- Writing the duty cycle and the occupancy of an empty node. -/
theorem prime_turn (d occ : ℚ) {n : Node} (hn : r.cur.sim.node? a = some n)
    (hnil : n.vTaskList = []) :
    Steps s (Turn a) r (s.did (.prime a d occ) r) ∧
      (s.did (.prime a d occ) r).cur.sim.node? a =
        some { n with dutyCycle := some d, occupancy := occ } := by
  refine ⟨steps_act (a := .prime a d occ) ⟨n, hn, hnil⟩ ⟨rfl, fun b hb => by cases hb⟩, ?_⟩
  simp [Action.apply, Core.write_node?, hn]

theorem Settled.prime (a : Addr) (d occ : ℚ) (h : Settled s r.cur) :
    Settled s (s.did (.prime a d occ) r).cur ∧ (s.did (.prime a d occ) r).cur.task = r.cur.task := by
  refine ⟨⟨?_, ?_, fun hc => ?_⟩, by simp [Action.apply]⟩
  · simpa [Action.apply] using h.pending
  · simpa [Action.apply] using h.unchecked
  · simpa [Action.apply] using h.uncharged hc

/-- The gpu-let that `placeResidue` places: `batch` requests at `rate`, cut to
the network limit. -/
theorem residue_guard {n : Node} {t : Task} {batch rate : Int} {v : ℚ} (hset : Settled s r.cur)
    (hn : r.cur.sim.node? a = some n) (hnil : n.vTaskList = []) (hrpos : (0 : ℚ) < rate)
    (hlo : 1 ≤ batch) (hhi : batch ≤ maxBatch) (hd0 : (batch * (1000 / rate) : ℚ) ≠ 0)
    (hscale : ScaledDown (createNewTask r.cur.task.id rate r.cur.task.SLO batch
      (1000 * batch / (batch * (1000 / rate)))) t)
    (hsolo : s.useInterference = false →
      s.soloLatency n.type r.cur.task.id batch n.resourcePntg = .ok v)
    (htest : v + 1000 * batch / rate ≤ r.cur.task.SLO ∨ batch = 1) :
    PlaceGuard s r.cur a .residue t (batch * (1000 / rate)) where
  settled := hset.pending
  unchecked := hset.unchecked
  charged := hset.uncharged
  id_eq := hscale.id_eq
  SLO_eq := hscale.SLO_eq
  rate_duty := hscale.rate_duty (by
    simp only [createNewTask]
    exact rate_mul_duty hd0)
  positive := fun _ => by
    have hbpos : (0 : ℚ) < batch := by exact_mod_cast (by omega : 0 < batch)
    refine ⟨hscale.throughput_nonneg ?_, by positivity⟩
    simp only [createNewTask]
    positivity
  target := by
    refine ⟨n, batch, v, hn, hnil, hscale.batch_pos, hscale.batch_le, hhi, ?_, ?_⟩
    · intro hs
      rw [hscale.id_eq]
      exact hsolo hs
    · refine .residue ?_ ?_ ?_
      · rw [hscale.rate_eq]
        exact fun h0 => hrpos.ne' (by simp only [createNewTask] at h0; rw [h0]; rfl)
      · rw [hscale.rate_eq]
        simp only [createNewTask]
        ring
      · have heq : (batch * (1000 / rate) : ℚ) = 1000 * batch / rate := by ring
        rw [heq]
        exact htest

theorem placeResidue_ok {o : Option Unit} (hempty : r.cur.sim.Empty a) (hset : Settled s r.cur)
    (hrate : trpSlack < r.cur.task.requestRate) (h : s.placeResidue a r = .ok (o, r')) :
    Steps s (Turn a) r r' ∧ Settled s r'.cur := by
  unfold placeResidue at h
  obtain ⟨n, hn, h⟩ := getNode_bind h
  replace h := getSim_bind h
  replace h := getTask_bind h
  obtain ⟨⟨batch, rate⟩, hmax, h⟩ := query_bind h
  have hspec := getMaxBatch_ok hmax
  have hge := hspec.rate_ge (Or.inl rfl)
  replace h := act_bind h
  obtain ⟨m, hm, hnil⟩ := hempty
  obtain rfl : n = m := Option.some.inj (hn.symm.trans hm)
  have hrerate : Steps s (Turn a) r (s.did (.rerate rate) r) :=
    steps_act (a := .rerate rate) hge ⟨rfl, fun b hb => by cases hb⟩
  have hset1 : Settled s (s.did (.rerate rate) r).cur :=
    ⟨hset.pending, hset.unchecked, hset.uncharged⟩
  have hn1 : (s.did (.rerate rate) r).cur.sim.node? a = some n := hn
  have htask1 : (s.did (.rerate rate) r).cur.task = { r.cur.task with requestRate := rate } := rfl
  generalize s.did (.rerate rate) r = r1 at *
  split at h
  · obtain ⟨-, rfl⟩ := pure_end h
    exact ⟨hrerate, hset1⟩
  case isFalse hb0 =>
    obtain ⟨hlo, hhi, v, hv, htest⟩ := hspec.residue hb0
    have hsolo : s.useInterference = false →
        s.soloLatency n.type r.cur.task.id batch n.resourcePntg = .ok v :=
      fun hs => getLatencyOn_solo hs hv
    obtain ⟨period, hper, h⟩ := query_bind h
    obtain ⟨hr0, rfl⟩ := fdiv_ok.mp hper
    replace h := act_bind h
    obtain ⟨hp1, hk1⟩ := prime_turn (s := s) (batch * (1000 / rate)) n.occupancy hn1 hnil
    obtain ⟨hset3, htask3⟩ := Settled.prime a (batch * (1000 / rate)) n.occupancy hset1
    generalize s.did (.prime a (batch * (1000 / rate)) n.occupancy) r1 = r2 at *
    obtain ⟨trp, htrp, h⟩ := query_bind h
    obtain ⟨hd0, rfl⟩ := fdiv_ok.mp htrp
    obtain ⟨gpu, hgpu, h⟩ := getGPU_bind h
    obtain ⟨ot, hot, h⟩ := query_bind h
    cases ot with
    | none =>
        obtain ⟨-, rfl⟩ := pure_end h
        exact ⟨hrerate.trans hp1, hset3⟩
    | some t =>
        have hscale := limitToNetBW_ok hlo hot
        obtain ⟨latency, -, h⟩ := query_bind h
        obtain ⟨occ, -, h⟩ := query_bind h
        replace h := act_bind h
        obtain ⟨hp2, hk2⟩ := prime_turn (s := s) (batch * (1000 / rate)) occ hk1 hnil
        obtain ⟨hset4, htask4⟩ := Settled.prime a (batch * (1000 / rate)) occ hset3
        generalize s.did (.prime a (batch * (1000 / rate)) occ) r2 = r3 at *
        obtain ⟨fits, -, h⟩ := query_bind h
        have hsteps3 : Steps s (Turn a) r r3 := (hrerate.trans hp1).trans hp2
        have htask : r3.cur.task = { r.cur.task with requestRate := rate } := by
          rw [htask4, htask3, htask1]
        cases fits with
        | false =>
            obtain ⟨-, rfl⟩ := pure_end h
            exact ⟨hsteps3, hset4⟩
        | true =>
            replace h := act_bind h
            obtain ⟨⟨⟩, r4, hsettle, h⟩ := Prog.bind_ok h
            obtain ⟨-, rfl⟩ := pure_end h
            have hrpos : (0 : ℚ) < rate := by
              have : (0 : Int) < rate := by
                simp only [trpSlack] at hrate
                omega
              exact_mod_cast this
            have hid : r3.cur.task.id = r.cur.task.id := by rw [htask]
            have hSLO : r3.cur.task.SLO = r.cur.task.SLO := by rw [htask]
            rw [← hid, ← hSLO] at hscale
            rw [← hid] at hsolo
            rw [← hSLO] at htest
            have hguard := residue_guard hset4 hk2 hnil hrpos hlo hhi hd0 hscale hsolo htest
            obtain ⟨hsteps, hset'⟩ := place_settle_ok hguard hk2 hnil hsettle
              fun rate => remaining_covers rate _
            exact ⟨hsteps3.trans hsteps, hset'⟩

/-- A turn of the residue loop. -/
theorem residueTurn_ok {given given1 : List Addr} {o : Option Unit} {r1 r2 : Rec Core Action}
    (htab : TableOK s table) (hfree : Free r.cur.sim given) (hset : Settled s r.cur)
    (hrate : ¬ r.cur.task.requestRate ≤ trpSlack)
    (ha : s.chooseNode table r.cur.task r.cur.sim given = .ok a)
    (hsplit : s.splitResidue table a given r = .ok (given1, r1))
    (hplace : s.placeResidue a r1 = .ok (o, r2)) :
    Steps s Readjusts r r2 ∧ Free r2.cur.sim (given1.erase a) ∧ Settled s r2.cur := by
  obtain ⟨h1, hfree1, ha1⟩ := splitResidue_ok htab hfree (chooseNode_mem ha) hsplit
  have hrate1 : trpSlack < r1.cur.task.requestRate := by
    rw [(split_frame h1).1]
    exact not_le.mp hrate
  obtain ⟨hturn, hset2⟩ :=
    placeResidue_ok (hfree1.2 a ha1) (Settled.split hset h1) hrate1 hplace
  exact ⟨Moves.trans (h1.mono fun _ hk => (turn_of_splits (a := a) hk).1)
    (hturn.mono fun _ hk => hk.1), Free.turn hfree1 hturn, hset2⟩

theorem residueLoop_ok {fuel : Nat} {given : List Addr} {ret : Ret} (htab : TableOK s table)
    (hfree : Free r.cur.sim given) (hset : Settled s r.cur)
    (h : s.residueLoop table fuel given r = .ok (ret, r')) :
    Steps s Readjusts r r' ∧ Settled s r'.cur := by
  induction fuel generalizing r given with
  | zero =>
      unfold residueLoop at h
      obtain ⟨b, hb, -⟩ := Prog.ask_ok h
      cases hb
  | succ fuel ih =>
      unfold residueLoop at h
      replace h := getTask_bind h
      split at h
      · obtain ⟨-, rfl⟩ := pure_end h
        exact ⟨Moves.refl _, hset⟩
      case isFalse hrate =>
        split at h
        · obtain ⟨-, rfl⟩ := pure_end h
          exact ⟨Moves.refl _, hset⟩
        · replace h := getSim_bind h
          obtain ⟨a, ha, h⟩ := query_bind h
          obtain ⟨given1, r1, hsplit, h⟩ := Prog.bind_ok h
          obtain ⟨o, r2, hplace, h⟩ := Prog.bind_ok h
          obtain ⟨hsteps, hfree2, hset2⟩ :=
            residueTurn_ok htab hfree hset hrate ha hsplit hplace
          cases o with
          | none =>
              obtain ⟨-, rfl⟩ := pure_end h
              exact ⟨hsteps, hset2⟩
          | some u =>
              obtain ⟨h3, h4⟩ := ih hfree2 hset2 h
              exact ⟨hsteps.trans h3, h4⟩

/-! ## `readjust` -/

/-- With `additional_rate` at 0 it stays 0: only `allocateFit` adds to it. -/
theorem readjusts_additional (h : Steps s Readjusts r r') (h0 : r.cur.task.additionalRate = 0) :
    r'.cur.task.additionalRate = 0 := by
  refine (h.strengthen (I := fun c => c.task.additionalRate = 0) ?_ h0).2
  rintro c act hc ⟨-, hk⟩
  cases act <;> try cases hk
  case split a p => simp only [Action.apply]; split <;> exact hc
  case absorb => rfl
  all_goals simpa [Action.apply, Core.setRate] using hc

theorem readjust_ok {given : List Addr} {ret : Ret} (htab : TableOK s table)
    (hfree : Free r.cur.sim given) (hset : Settled s r.cur)
    (h : s.readjust table given r = .ok (ret, r')) :
    Steps s Readjusts r r' ∧ Settled s r'.cur ∧
      (s.useInterference = true ∨ r.cur.task.additionalRate = 0 →
        r'.cur.task.additionalRate = 0) := by
  unfold readjust at h
  replace h := getSim_bind h
  have hperm := hfree.perm (sortNodes_perm (s := s) r.cur.sim given)
  have key : ∀ (after : LoopEnd → Sched Ret) (r1 : Rec Core Action),
      after .failed = pure .failure →
      (∀ given, after (.toResidue given) = s.residueLoop table s.fuel given) →
      after .stop = (do
        let task ← getTask
        pure (if task.requestRate > trpSlack then .failure else .success)) →
      Steps s Readjusts r r1 → Free r1.cur.sim (s.sortNodes r.cur.sim given) → Settled s r1.cur →
      (s.useInterference = true ∨ r.cur.task.additionalRate = 0 →
        r1.cur.task.additionalRate = 0) →
      (s.saturateLoop table s.fuel (s.sortNodes r.cur.sim given) >>= after) r1 = .ok (ret, r') →
      Steps s Readjusts r r' ∧ Settled s r'.cur ∧
        (s.useInterference = true ∨ r.cur.task.additionalRate = 0 →
          r'.cur.task.additionalRate = 0) := by
    intro after r1 hfailed htoResidue hstop h1 hfree1 hset1 hadd1 hk
    obtain ⟨e, r2, hloop, hk⟩ := Prog.bind_ok hk
    obtain ⟨h2, hset2, hres⟩ := saturateLoop_ok htab hfree1 hset1 hloop
    cases e with
    | failed =>
        rw [hfailed] at hk
        obtain ⟨-, rfl⟩ := pure_end hk
        exact ⟨h1.trans h2, hset2, fun hc => readjusts_additional h2 (hadd1 hc)⟩
    | stop =>
        rw [hstop] at hk
        replace hk := getTask_bind hk
        obtain ⟨-, rfl⟩ := pure_end hk
        exact ⟨h1.trans h2, hset2, fun hc => readjusts_additional h2 (hadd1 hc)⟩
    | toResidue given' =>
        rw [htoResidue] at hk
        obtain ⟨h3, hset3⟩ := residueLoop_ok htab (hres given' rfl) hset2 hk
        exact ⟨(h1.trans h2).trans h3, hset3,
          fun hc => readjusts_additional (Moves.trans h2 h3) (hadd1 hc)⟩
  dsimp only at h
  by_cases hint : s.useInterference = true
  · rw [if_pos hint] at h
    replace h := act_bind h
    refine key _ _ rfl (fun _ => rfl) rfl (steps_act (a := .absorb) hint rfl) hperm ?_
      (fun _ => rfl) h
    exact ⟨hset.pending, hset.unchecked, hset.uncharged⟩
  · rw [if_neg hint] at h
    exact key _ r rfl (fun _ => rfl) rfl (Moves.refl _) hperm hset (fun hc => hc.resolve_left hint) h

end Scheduler

end Glet
