import Glet.Readjust

/-!
# The writes of `mergeResidue` and `allocateTimeShare`

`mergeResidue` collects the residue gpu-lets of a model, clears them all
and puts the collected rate on one node, or nowhere (`unplaced`).
`allocateTimeShare` adds the task to nodes that have room.
The erasure of an already scheduled task is at the end.
-/

namespace Glet

open Recorder

namespace Scheduler

variable {s : Scheduler} {r r' : Rec Core Action} {table : SatTable} {a : Addr}

abbrev Merges (act : Action) : Prop := act.isMerge = true

/-! ## Clearing the residues -/

/-- No residue gpu-let of the current task at an address. -/
def Cleared (c : Core) (b : Addr) : Prop :=
  ∀ n, c.sim.node? b = some n → isResidueOf c.task.id n = false

theorem wipe_node? (repart : Bool) (c : Core) (a b : Addr) (used : Int) :
    ((Action.wipe a used).apply repart c).sim.node? b =
      if b = a then (c.sim.node? a).map fun n =>
        { n with vTaskList := [], dutyCycle := some 0, occupancy := 0 }
      else c.sim.node? b := by
  simp only [Action.apply]
  rw [SimState.node?_modifyGPU]
  · exact Core.write_node? c a b _
  · exact fun _ => rfl

theorem wipe_task (repart : Bool) (c : Core) (a : Addr) (used : Int) :
    ((Action.wipe a used).apply repart c).task = c.task ∧
      ((Action.wipe a used).apply repart c).phase = c.phase := by
  simp [Action.apply]

theorem Cleared.wipe (repart : Bool) {c : Core} {b : Addr} {used : Int}
    (h : b = a ∨ Cleared c b) :
    Cleared ((Action.wipe a used).apply repart c) b := by
  intro n hn
  rw [wipe_node?] at hn
  split at hn
  case isTrue =>
    obtain ⟨m, -, rfl⟩ := Option.map_eq_some_iff.mp hn
    simp [isResidueOf]
  case isFalse hba =>
    rw [(wipe_task repart c a used).1]
    exact h.resolve_left hba n hn

theorem wipeResidues_ok {as : List Addr} {u : Unit} (h : s.wipeResidues as r = .ok (u, r'))
    (hphase : ∃ rate count, r.cur.phase = .moving rate count) :
    Steps s Merges r r' ∧ r'.cur.task = r.cur.task ∧ r'.cur.phase = r.cur.phase ∧
      (∀ b, r.cur.sim.node? b = none → r'.cur.sim.node? b = none) ∧
      ∀ b, b ∈ as ∨ Cleared r.cur b → Cleared r'.cur b := by
  induction as generalizing r with
  | nil =>
      obtain ⟨-, rfl⟩ := pure_end h
      exact ⟨Moves.refl _, rfl, rfl, fun _ h => h, fun b hb => hb.resolve_left (by simp)⟩
  | cons a as ih =>
      unfold wipeResidues at h
      obtain ⟨n, hn, h⟩ := getNode_bind h
      replace h := getTask_bind h
      split at h
      case isFalse hres =>
        obtain ⟨h1, h2, h3, h4, h5⟩ := ih h hphase
        refine ⟨h1, h2, h3, h4, fun b hb => h5 b ?_⟩
        rcases hb with hb | hb
        · rcases List.mem_cons.mp hb with rfl | hb
          · refine Or.inr fun m hm => ?_
            obtain rfl : n = m := Option.some.inj (hn.symm.trans hm)
            simpa using hres
          · exact Or.inl hb
        · exact Or.inr hb
      case isTrue hres =>
        obtain ⟨gpu, -, h⟩ := getGPU_bind h
        obtain ⟨used, -, h⟩ := query_bind h
        replace h := act_bind h
        obtain ⟨htask, hph⟩ := wipe_task s.useRepartition r.cur a used
        obtain ⟨h1, h2, h3, h4, h5⟩ := ih h (by simpa [hph] using hphase)
        refine ⟨Moves.trans (steps_act (a := .wipe a used) ⟨hphase, n, hn, hres⟩ rfl) h1,
          h2.trans htask, h3.trans hph, fun b hb => h4 b ?_, fun b hb => h5 b ?_⟩
        · rw [Prog.after_cur, wipe_node?]
          split
          case isTrue hba =>
            rw [hba, hn] at hb
            cases hb
          case isFalse => exact hb
        · rcases hb with hb | hb
          · rcases List.mem_cons.mp hb with rfl | hb
            · exact Or.inr (Cleared.wipe s.useRepartition (Or.inl rfl))
            · exact Or.inl hb
          · exact Or.inr (Cleared.wipe s.useRepartition (Or.inr hb))

/-! ## Placing the collected rate -/

theorem replaceResidue_ok {rate count : Int} {k : Nat} {type : DeviceType} {part : Int}
    {as : List Addr} {u : Unit} (h : s.replaceResidue rate type part as r = .ok (u, r'))
    (hphase : r.cur.phase = .moving count k) (hrate : count ≤ rate)
    (hclear : ∀ b, Cleared r.cur b) :
    Steps s Merges r r' ∧ r'.cur.phase = .done := by
  induction as generalizing rate with
  | nil =>
      obtain rfl := act_end h
      exact ⟨steps_act (a := .unplaced) ⟨_, _, hphase⟩ rfl, rfl⟩
  | cons a as ih =>
      unfold replaceResidue at h
      obtain ⟨n, hn, h⟩ := getNode_bind h
      replace h := getTask_bind h
      replace h := getSim_bind h
      obtain ⟨gpu, -, h⟩ := getGPU_bind h
      obtain ⟨memOK, -, h⟩ := query_bind h
      split at h
      case isFalse => exact ih h hrate
      case isTrue hcond =>
        obtain ⟨⟨batch, rate'⟩, hmax, h⟩ := query_bind h
        have hspec := getMaxBatch_ok hmax
        have hge := hspec.rate_ge (Or.inl rfl)
        dsimp only at h
        split at h
        case isTrue => exact ih h (by omega)
        case isFalse hb0 =>
          obtain ⟨hlo, hhi, v, hv, htest⟩ := hspec.residue hb0
          obtain ⟨duty, hduty, h⟩ := query_bind h
          obtain ⟨hr0, rfl⟩ := fdiv_ok.mp hduty
          obtain ⟨latency, -, h⟩ := query_bind h
          obtain ⟨occ, -, h⟩ := query_bind h
          obtain ⟨trp, htrp, h⟩ := query_bind h
          obtain ⟨hd0, rfl⟩ := fdiv_ok.mp htrp
          obtain rfl := act_end h
          have hbne : (batch : ℚ) ≠ 0 := by exact_mod_cast (by omega : batch ≠ 0)
          have hrne : (rate' : ℚ) ≠ 0 := by exact_mod_cast hr0
          have htrp_eq : (batch * 1000 / (batch * 1000 / rate') : ℚ) = rate' := by field_simp
          have hduty_eq : (batch * 1000 / rate' : ℚ) = 1000 * batch / rate' := by ring
          refine ⟨steps_act (a := .merged a _ _ _ _) ?_ rfl, rfl⟩
          refine
            { id_eq := rfl, SLO_eq := rfl, batch_pos := hlo, batch_le := hhi
              rate_ne := ?_, throughput_eq := ?_, duty_eq := ?_, left_eq := ?_, wiped := hclear
              collected := ⟨count, k, hphase, ?_⟩, target := ⟨n, v, hn, hcond.2.1, ?_, ?_⟩ }
          · simp only [createNewTask, htrp_eq, toInt_intCast]
            exact_mod_cast hrne
          · simp only [createNewTask, htrp_eq, toInt_intCast]
          · simp only [createNewTask, htrp_eq, toInt_intCast]
            exact hduty_eq
          · simp [htrp_eq]
          · simp only [createNewTask, htrp_eq, toInt_intCast]
            omega
          · exact fun hs => getLatencyOn_solo hs hv
          · rw [hduty_eq]
            exact htest

/-! ## Merging empty nodes -/

theorem unifyNodes_ok {gs : List Nat} {u : Unit} (h : s.unifyNodes gs r = .ok (u, r')) :
    Steps s Merges r r' ∧ r'.cur.task = r.cur.task ∧ r'.cur.phase = r.cur.phase := by
  induction gs generalizing r with
  | nil =>
      obtain ⟨-, rfl⟩ := pure_end h
      exact ⟨Moves.refl _, rfl, rfl⟩
  | cons g gs ih =>
      unfold unifyNodes at h
      obtain ⟨gpu, hgpu, h⟩ := getGPU_bind h
      split at h
      case isFalse => exact ih h
      case isTrue hcond =>
        replace h := act_bind h
        obtain ⟨h1, h2, h3⟩ := ih h
        refine ⟨Moves.trans (steps_act (a := .unify g) ⟨gpu, hgpu, hcond.1, ?_⟩ rfl) h1, h2, h3⟩
        intro n hn
        simpa using List.all_eq_true.mp hcond.2.1 n hn

/-! ## `mergeResidue` -/

theorem mergeResidue_ok {ret : Ret} (hset : Settled s r.cur) (hphase : r.cur.phase = .placing)
    (h : s.mergeResidue table r = .ok (ret, r')) :
    Steps s Merges r r' ∧ (ret = .success → r'.cur.task.requestRate ≤ trpSlack) ∧
      (ret = .failure → trpSlack < r'.cur.task.requestRate) ∧
      (r' = r ∨ r'.cur.phase = .done) := by
  unfold mergeResidue at h
  replace h := getTask_bind h
  replace h := getSim_bind h
  obtain ⟨found, hfound, h⟩ := query_bind h
  obtain ⟨hrate, hcount⟩ := gatherResidues_ok hfound
  have hskip : ∀ ret : Ret,
      ret = (if r.cur.task.requestRate > trpSlack then Ret.failure else Ret.success) →
      (ret = .success → r.cur.task.requestRate ≤ trpSlack) ∧
        (ret = .failure → trpSlack < r.cur.task.requestRate) := by
    intro ret hret
    split at hret
    case isTrue hlt => exact ⟨fun h => (by rw [h] at hret; cases hret), fun _ => hlt⟩
    case isFalse hle => exact ⟨fun _ => not_lt.mp hle, fun h => (by rw [h] at hret; cases hret)⟩
  dsimp only at h
  cases hmin : found.minSat with
  | none =>
      rw [hmin] at h
      obtain ⟨hret, rfl⟩ := pure_end h
      exact ⟨Moves.refl _, (hskip ret hret).1, (hskip ret hret).2, Or.inl rfl⟩
  | some p =>
      obtain ⟨minSat, type, part⟩ := p
      rw [hmin] at h
      dsimp only at h
      split at h
      · obtain ⟨hret, rfl⟩ := pure_end h
        exact ⟨Moves.refl _, (hskip ret hret).1, (hskip ret hret).2, Or.inl rfl⟩
      · replace h := act_bind h
        have hgather : Steps s Merges r (s.did (.gather found.rate found.count) r) := by
          refine steps_act (a := .gather found.rate found.count) ⟨hphase, hset.pending, ?_, ?_⟩ rfl
          · rw [SimState.total_eq_nodes]
            exact hrate
          · rw [SimState.total_eq_nodes]
            simpa using hcount
        obtain ⟨⟨⟩, r1, hwipe, h⟩ := Prog.bind_ok h
        obtain ⟨h1, htask1, hphase1, hnone1, hclear1⟩ := wipeResidues_ok hwipe ⟨_, _, rfl⟩
        have hclear : ∀ b, Cleared r1.cur b := by
          intro b
          cases hb : r.cur.sim.node? b with
          | none =>
              intro n hn
              rw [hnone1 b hb] at hn
              cases hn
          | some n => exact hclear1 b (Or.inl (SimState.mem_addrs.mpr ⟨n, hb⟩))
        obtain ⟨⟨⟩, r2, hrepl, h⟩ := Prog.bind_ok h
        obtain ⟨h2, hphase2⟩ := replaceResidue_ok hrepl hphase1 le_rfl hclear
        have hsteps : Steps s Merges r r2 := (hgather.trans h1).trans h2
        replace h := getTask_bind h
        split at h
        case isTrue hlt =>
          obtain ⟨rfl, rfl⟩ := pure_end h
          exact ⟨hsteps, fun hc => (by cases hc), fun _ => hlt, Or.inr hphase2⟩
        case isFalse hle =>
          obtain ⟨⟨⟩, r3, hunify, h⟩ := Prog.bind_ok h
          obtain ⟨rfl, rfl⟩ := pure_end h
          obtain ⟨h3, htask3, hphase3⟩ := unifyNodes_ok hunify
          refine ⟨hsteps.trans h3, fun _ => ?_, fun hc => (by cases hc),
            Or.inr (hphase3.trans hphase2)⟩
          rw [htask3]
          exact not_lt.mp hle

theorem merges_frame (h : Steps s Merges r r') :
    r'.cur.session = r.cur.session ∧ r'.cur.task.id = r.cur.task.id ∧
      r'.cur.task.additionalRate = r.cur.task.additionalRate ∧
      (Settled s r.cur → Settled s r'.cur) := by
  have hkeep : (r'.cur.session, r'.cur.task.id, r'.cur.task.SLO, r'.cur.task.additionalRate,
      r'.cur.pending, r'.cur.uncharged, r'.cur.unchecked) =
      (r.cur.session, r.cur.task.id, r.cur.task.SLO, r.cur.task.additionalRate, r.cur.pending,
        r.cur.uncharged, r.cur.unchecked) :=
    Moves.keeps (f := fun c => (c.session, c.task.id, c.task.SLO, c.task.additionalRate, c.pending,
      c.uncharged, c.unchecked)) (fun c _ hg => Action.merge_keeps _ c hg.2) h
  simp only [Prod.mk.injEq] at hkeep
  obtain ⟨h1, h2, -, h4, h5, h6, h7⟩ := hkeep
  exact ⟨h1, h2, h4, fun hset => ⟨h5.trans hset.pending, h7.trans hset.unchecked,
    fun hc => h6.trans (hset.uncharged hc)⟩⟩

/-! ## Time sharing -/

abbrev Shared (act : Action) : Prop := act.isShare = true

theorem shared_of_charge {act : Action} (h : act.isCharge = true) : Shared act := by
  cases act <;> first | rfl | cases h

theorem inner_of_shared {act : Action} (h : Shared act) : Inner act := by
  cases act <;> first | rfl | cases h

/-- A turn of the loop takes no node, or the first of the candidates that
`shareNode` has an answer for. -/
theorem shareFirst_cases {as : List Addr} {found : Bool} (h : s.shareFirst as r = .ok (found, r')) :
    (found = false ∧ r' = r) ∨ found = true ∧ ∃ a n batch duty occ, a ∈ as ∧
      r.cur.sim.node? a = some n ∧
      s.shareNode r.cur.task n r.cur.sim = .ok (some (batch, duty)) ∧ (duty : ℚ) ≠ 0 ∧ 1 ≤ batch ∧
      s.addGPUMemUsage a (s.did (.share a
        (createNewTask r.cur.task.id r.cur.task.requestRate r.cur.task.SLO batch
          (batch * (1000 / duty))) duty occ
        (if (r.cur.task.requestRate : ℚ) - batch * (1000 / duty) > 0 then
          toInt (r.cur.task.requestRate - batch * (1000 / duty)) else 0)) r) = .ok ((), r') := by
  induction as with
  | nil =>
      obtain ⟨rfl, rfl⟩ := pure_end h
      exact Or.inl ⟨rfl, rfl⟩
  | cons a as ih =>
      unfold shareFirst at h
      obtain ⟨n, hn, h⟩ := getNode_bind h
      replace h := getTask_bind h
      replace h := getSim_bind h
      obtain ⟨o, ho, h⟩ := query_bind h
      cases o with
      | none =>
          refine (ih h).imp_right fun ⟨hfound, b, m, batch, duty, occ, hb, hrest⟩ => ?_
          exact ⟨hfound, b, m, batch, duty, occ, List.mem_cons_of_mem a hb, hrest⟩
      | some p =>
          obtain ⟨batch, duty⟩ := p
          obtain ⟨period, hper, h⟩ := query_bind h
          obtain ⟨hne, rfl⟩ := fdiv_ok.mp hper
          obtain ⟨sum, hsum, h⟩ := query_bind h
          obtain ⟨occ, -, h⟩ := query_bind h
          replace h := act_bind h
          obtain ⟨⟨⟩, r1, hmem, h⟩ := Prog.bind_ok h
          obtain ⟨rfl, rfl⟩ := pure_end h
          have hbatch : 1 ≤ batch := latencySum_batch hsum
            (createNewTask r.cur.task.id r.cur.task.requestRate r.cur.task.SLO batch
              (batch * (1000 / duty))) (List.mem_append.mpr (Or.inr (List.mem_singleton.mpr rfl)))
          exact Or.inr ⟨rfl, a, n, batch, duty, occ, List.mem_cons_self .., hn, ho, hne, hbatch, hmem⟩

theorem shareFirst_ok {as : List Addr} {found : Bool} (hset : Settled s r.cur)
    (hrate : trpSlack < r.cur.task.requestRate) (h : s.shareFirst as r = .ok (found, r')) :
    Steps s Shared r r' ∧ Settled s r'.cur ∧
      r'.cur.task.additionalRate = r.cur.task.additionalRate := by
  rcases shareFirst_cases h with ⟨-, rfl⟩ | ⟨-, a, n, batch, duty, occ, -, hn, ho, hd0, hbatch, hmem⟩
  · exact ⟨Moves.refl _, hset, rfl⟩
  obtain ⟨latency, others, hshare⟩ := shareNode_ok ho hbatch
  have hrq : (0 : ℚ) < r.cur.task.requestRate := by
    simp only [trpSlack] at hrate
    exact_mod_cast (by omega : 0 < r.cur.task.requestRate)
  have hbq : (0 : ℚ) < batch := by exact_mod_cast (by omega : 0 < batch)
  have hduty : 1 ≤ duty := by
    have hnn : (0 : ℚ) ≤ batch * 1000 / r.cur.task.requestRate := by positivity
    have hge : 0 ≤ duty := by
      rw [hshare.duty_eq, toInt_of_nonneg hnn]
      exact Int.floor_nonneg.mpr hnn
    have hne : duty ≠ 0 := by
      intro h0
      exact hd0 (by rw [h0]; rfl)
    omega
  have hguard : ShareGuard s r.cur a
      (createNewTask r.cur.task.id r.cur.task.requestRate r.cur.task.SLO batch
        (batch * (1000 / duty))) duty
      (if (r.cur.task.requestRate : ℚ) - batch * (1000 / duty) > 0 then
        toInt (r.cur.task.requestRate - batch * (1000 / duty)) else 0) :=
    { settled := hset.pending, charged := hset.uncharged, rate_pos := hrate, duty_pos := hduty, batch_pos := hbatch
      new_eq := rfl
      covers := by
        have := remaining_covers r.cur.task.requestRate (batch * (1000 / duty))
        simp only [createNewTask]
        split at this
        case isTrue hle =>
          split
          · exact this
          case isFalse hnot =>
            have heq : (r.cur.task.requestRate : ℚ) - batch * (1000 / duty) = 0 := by
              linarith
            rw [heq] at this
            simpa [toInt] using this
        case isFalse hlt =>
          rw [if_neg (by linarith)]
          exact this
      target := ⟨n, latency, others, hn, hshare⟩ }
  obtain ⟨h2, hcharged⟩ := addGPUMemUsage_ok hmem rfl
  obtain ⟨htask2, hpend2, hunch2, -⟩ := charge_frame h2
  refine ⟨Moves.trans (steps_act (a := .share a _ duty occ _) hguard rfl)
    (h2.mono fun _ hk => shared_of_charge hk), ⟨?_, ?_, hcharged⟩, ?_⟩
  · rw [hpend2]
    simpa [Action.apply, Core.setRate] using hset.pending
  · rw [hunch2]
    simpa [Action.apply, Core.setRate] using hset.unchecked
  · rw [htask2]
    simp [Action.apply, Core.setRate]

theorem shareLoop_ok {candidates : List Addr} {fuel : Nat} {ret : Ret} (hset : Settled s r.cur)
    (hadd : r.cur.task.additionalRate = 0)
    (h : s.shareLoop candidates fuel r = .ok (ret, r')) :
    Steps s Shared r r' ∧ Settled s r'.cur ∧
      (ret = .success → r'.cur.task.requestRate ≤ trpSlack) := by
  induction fuel generalizing r with
  | zero =>
      unfold shareLoop at h
      obtain ⟨b, hb, -⟩ := Prog.ask_ok h
      cases hb
  | succ fuel ih =>
      unfold shareLoop at h
      replace h := getTask_bind h
      rw [hadd, add_zero] at h
      split at h
      case isTrue hle =>
        obtain ⟨-, rfl⟩ := pure_end h
        exact ⟨Moves.refl _, hset, fun _ => hle⟩
      case isFalse hlt =>
        obtain ⟨found, r1, hfirst, h⟩ := Prog.bind_ok h
        obtain ⟨h1, hset1, hadd1⟩ := shareFirst_ok hset (not_le.mp hlt) hfirst
        cases found with
        | false =>
            obtain ⟨rfl, rfl⟩ := pure_end h
            exact ⟨h1, hset1, fun hc => by cases hc⟩
        | true =>
            obtain ⟨h2, h3, h4⟩ := ih hset1 (hadd1.trans hadd) h
            exact ⟨h1.trans h2, h3, h4⟩

theorem allocateTimeShare_ok {tsNodes : List Addr} {ret : Ret} (hset : Settled s r.cur)
    (hadd : r.cur.task.additionalRate = 0)
    (h : s.allocateTimeShare tsNodes r = .ok (ret, r')) :
    Steps s Shared r r' ∧ Settled s r'.cur ∧
      (ret = .success → r'.cur.task.requestRate ≤ trpSlack) := by
  unfold allocateTimeShare at h
  replace h := getTask_bind h
  replace h := getSim_bind h
  obtain ⟨candidates, -, h⟩ := query_bind h
  exact shareLoop_ok hset hadd h

/-! ## Erasing a scheduled task -/

abbrev Forgets (act : Action) : Prop := act.isForget = true

theorem inner_of_forgets {act : Action} (h : Forgets act) : act.isInner = true := by
  cases act <;> first | rfl | cases h

theorem forgets_frame (h : Steps s Forgets r r') :
    r'.cur.task = r.cur.task ∧ (Settled s r.cur → Settled s r'.cur) := by
  have hkeep : (r'.cur.task, r'.cur.pending, r'.cur.unchecked, r'.cur.uncharged) =
      (r.cur.task, r.cur.pending, r.cur.unchecked, r.cur.uncharged) := by
    refine Moves.keeps (f := fun c => (c.task, c.pending, c.unchecked, c.uncharged)) ?_ h
    rintro c act ⟨-, hk⟩
    cases act <;> try cases hk
    all_goals simp [Action.apply]
  simp only [Prod.mk.injEq] at hkeep
  obtain ⟨h1, h2, h3, h4⟩ := hkeep
  exact ⟨h1, fun hset => ⟨h2.trans hset.pending, h3.trans hset.unchecked,
    fun hc => h4.trans (hset.uncharged hc)⟩⟩

/-- The nodes reported empty are empty, and nodes not visited are unchanged. -/
theorem forgetTask_ok {as targets tsTargets : List Addr} (hnodup : as.Nodup)
    (h : s.forgetTask as r = .ok ((targets, tsTargets), r')) :
    Steps s Forgets r r' ∧ (∀ b, b ∉ as → r'.cur.sim.node? b = r.cur.sim.node? b) ∧
      Free r'.cur.sim targets ∧ ∀ b ∈ targets, b ∈ as := by
  induction as generalizing r targets tsTargets with
  | nil =>
      obtain ⟨heq, rfl⟩ := pure_end h
      obtain ⟨rfl, rfl⟩ := Prod.mk.injEq .. |>.mp heq
      exact ⟨Moves.refl _, fun _ _ => rfl, ⟨List.nodup_nil, by simp⟩, by simp⟩
  | cons a as ih =>
      obtain ⟨ha, hnodup⟩ := List.nodup_cons.mp hnodup
      unfold forgetTask at h
      obtain ⟨n, hn, h⟩ := getNode_bind h
      replace h := getTask_bind h
      split at h
      case isTrue hnil =>
        obtain ⟨⟨tg, ts⟩, r1, hrec, h⟩ := Prog.bind_ok h
        obtain ⟨heq, rfl⟩ := pure_end h
        obtain ⟨rfl, rfl⟩ := Prod.mk.injEq .. |>.mp heq
        obtain ⟨h1, h2, h3, h4⟩ := ih hnodup hrec
        refine ⟨h1, fun b hb => h2 b fun hmem => hb (List.mem_cons_of_mem _ hmem),
          ⟨List.nodup_cons.mpr ⟨fun hmem => ha (h4 a hmem), h3.1⟩, ?_⟩, ?_⟩
        · intro b hb
          rcases List.mem_cons.mp hb with rfl | hb
          · exact ⟨n, (h2 b ha).trans hn, hnil⟩
          · exact h3.2 b hb
        · intro b hb
          rcases List.mem_cons.mp hb with rfl | hb
          · exact List.mem_cons_self ..
          · exact List.mem_cons_of_mem _ (h4 b hb)
      case isFalse =>
        have key : ∀ (after : Node → List Addr × List Addr → Sched (List Addr × List Addr))
            (r1 : Rec Core Action),
            (∀ node tg ts, after node (tg, ts) = pure (if node.vTaskList = [] then a :: tg else tg,
              if checkContain r.cur.task.id n then a :: ts else ts)) →
            Steps s Forgets r r1 → (∀ b, b ≠ a → r1.cur.sim.node? b = r.cur.sim.node? b) →
            (do
              let node ← getNode a
              let sim ← getSim
              let sum ← query (s.latencySum node sim node.vTaskList)
              let occupancy ← query (fdiv sum (s.dutyOf node))
              s.act (.occupy a occupancy)
              s.forgetTask as >>= after node : Sched (List Addr × List Addr)) r1 =
                .ok ((targets, tsTargets), r') →
            Steps s Forgets r r' ∧
              (∀ b, b ∉ a :: as → r'.cur.sim.node? b = r.cur.sim.node? b) ∧
              Free r'.cur.sim targets ∧ ∀ b ∈ targets, b ∈ a :: as := by
          intro after r1 hafter h1 hother hk
          obtain ⟨m, hm, hk⟩ := getNode_bind hk
          replace hk := getSim_bind hk
          obtain ⟨sum, -, hk⟩ := query_bind hk
          obtain ⟨occ, -, hk⟩ := query_bind hk
          replace hk := act_bind hk
          obtain ⟨⟨tg, ts⟩, r2, hrec, hk⟩ := Prog.bind_ok hk
          rw [hafter] at hk
          obtain ⟨heq, rfl⟩ := pure_end hk
          obtain ⟨rfl, -⟩ := Prod.mk.injEq .. |>.mp heq
          obtain ⟨h2, h3, h4, h5⟩ := ih hnodup hrec
          have hocc : ∀ b, (s.did (.occupy a occ) r1).cur.sim.node? b =
              if b = a then some { m with occupancy := occ } else r1.cur.sim.node? b := by
            intro b
            simp only [Prog.after_cur, Action.apply, Core.write_node?, hm, Option.map_some]
          refine ⟨(h1.trans (steps_act (a := .occupy a occ) ⟨m, hm⟩ rfl)).trans h2, ?_, ?_, ?_⟩
          · intro b hb
            have hba : b ≠ a := fun hba => hb (hba ▸ List.mem_cons_self ..)
            rw [h3 b fun hmem => hb (List.mem_cons_of_mem _ hmem), hocc, if_neg hba]
            exact hother b hba
          · split
            case isFalse => exact h4
            case isTrue hmnil =>
              refine ⟨List.nodup_cons.mpr ⟨fun hmem => ha (h5 a hmem), h4.1⟩, fun b hb => ?_⟩
              rcases List.mem_cons.mp hb with rfl | hb
              · exact ⟨{ m with occupancy := occ }, by rw [h3 b ha, hocc, if_pos rfl], hmnil⟩
              · exact h4.2 b hb
          · intro b hb
            split at hb
            · rcases List.mem_cons.mp hb with rfl | hb
              · exact List.mem_cons_self ..
              · exact List.mem_cons_of_mem _ (h5 b hb)
            · exact List.mem_cons_of_mem _ (h5 b hb)
        dsimp only at h
        by_cases hfound : checkContain r.cur.task.id n = true
        · rw [if_pos hfound] at h
          replace h := act_bind h
          refine key _ _ (fun _ _ _ => rfl) (steps_act (a := .forget a) ⟨n, hn, hfound⟩ rfl) ?_ h
          intro b hb
          simp only [Prog.after_cur, Action.apply, Core.write_node?, if_neg hb]
        · rw [if_neg hfound] at h
          exact key _ r (fun _ _ _ => rfl) (Moves.refl _) (fun _ _ => rfl) h

end Scheduler

end Glet
