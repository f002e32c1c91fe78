import Glet.MergeShare

/-!
# Whole runs

`addModeltoSchedule`, the passes over a session and `runScheduling`, put
together from the routines of the previous modules: every recorded write of
a run meets `Guard`. A task that `addModeltoSchedule` reports as scheduled
has at most `TRP_SLACK` of its rate left.
-/

namespace Glet

open Recorder

namespace Scheduler

variable {s : Scheduler} {r r' : Rec Core Action} {table table' : SatTable}

/-- The actions of one task. -/
abbrev OfTask (act : Action) : Prop := act.isTask = true

/-- The actions of one task after it was erased where it was scheduled. -/
abbrev Plan (act : Action) : Prop := act.isPlan = true

theorem Plan.ofTask {act : Action} (h : Plan act) : OfTask act := by
  cases act <;> first | rfl | cases h

theorem plan_of_inner {act : Action} (h : Inner act) : Plan act := by
  cases act <;> first | rfl | cases h

theorem plan_of_merge {act : Action} (h : act.isMerge = true) : Plan act := by
  cases act <;> first | rfl | cases h

theorem task_of_forgets {act : Action} (h : Forgets act) : OfTask act := by
  cases act <;> first | rfl | cases h

/-- The actions of a pass over a session. -/
def OfPass (act : Action) : Prop := act.isTask = true ∨ ∃ t, act = .start t

/-- With interference off nothing is added to `additional_rate`. -/
theorem inner_additional (h : Steps s Inner r r') (hs : s.useInterference = false)
    (h0 : r.cur.task.additionalRate = 0) : r'.cur.task.additionalRate = 0 := by
  refine (h.strengthen (I := fun c => c.task.additionalRate = 0) ?_ h0).2
  rintro c act hc ⟨hd, hk⟩
  cases act <;> try cases hk
  case split a p => simp only [Action.apply]; split <;> exact hc
  case absorb => rfl
  case addRate rate => simp [Detail, hs] at hd
  all_goals simpa [Action.apply, Core.setRate] using hc

/-! ## One task -/

theorem adjustAndShare_ok {given tsNodes : List Addr} {ret : Ret} (ids : List Int)
    (htab : TableOK s table) (hfree : Free r.cur.sim given) (hset : Settled s r.cur)
    (hphase : r.cur.phase = .placing) (hid : r.cur.task.id ∈ ids)
    (hadd : s.useInterference = true ∨ r.cur.task.additionalRate = 0)
    (h : s.adjustAndShare table given tsNodes r = .ok (ret, r')) :
    Runs s ids Plan r r' ∧ Settled s r'.cur ∧ r'.cur.task.id = r.cur.task.id ∧
      (r'.cur.phase = .placing ∨ r'.cur.phase = .done) ∧
      (ret = .success → r'.cur.task.requestRate ≤ trpSlack) := by
  unfold adjustAndShare at h
  obtain ⟨ret1, r1, hre, h⟩ := Prog.bind_ok h
  obtain ⟨h1, hset1, hadd1⟩ := readjust_ok htab hfree hset hre
  replace hadd1 := hadd1 hadd
  obtain ⟨hphase1, -, hid1, -⟩ := inner_frame h1 fun _ hk =>
    (inner_of_readjusts hk).isInner
  have hruns1 : Runs s ids Plan r r1 :=
    (h1.runs (fun _ hk => (inner_of_readjusts hk).isInner) hid (Or.inl hphase)).mono
      (List.Subset.refl _) fun _ hk => plan_of_inner (inner_of_readjusts hk)
  have hid1' : r1.cur.task.id ∈ ids := by rw [hid1]; exact hid
  obtain ⟨ret2, r2, hmerge, h⟩ := Prog.bind_ok h
  obtain ⟨h2, hsucc, hfail, hend⟩ := mergeResidue_ok hset1 (hphase1.trans hphase) hmerge
  obtain ⟨-, hid2, hadd2, hset2⟩ := merges_frame h2
  have hruns2 : Runs s ids Plan r r2 :=
    hruns1.trans ((h2.merge_runs hid1').mono (List.Subset.refl _) fun _ hk => plan_of_merge hk)
  have hphase2 : r2.cur.phase = .placing ∨ r2.cur.phase = .done := by
    rcases hend with rfl | hdone
    · exact Or.inl (hphase1.trans hphase)
    · exact Or.inr hdone
  cases ret2 with
  | success =>
      obtain ⟨rfl, rfl⟩ := pure_end h
      exact ⟨hruns2, hset2 hset1, hid2.trans hid1, hphase2, fun _ => hsucc rfl⟩
  | failure =>
      dsimp only at h
      split at h
      · obtain ⟨rfl, rfl⟩ := pure_end h
        exact ⟨hruns2, hset2 hset1, hid2.trans hid1, hphase2, fun hc => by cases hc⟩
      · obtain ⟨h3, hset3, hsucc3⟩ := allocateTimeShare_ok (hset2 hset1) (hadd2.trans hadd1) h
        obtain ⟨hphase3, -, hid3, -⟩ := inner_frame h3 fun _ hk =>
          (inner_of_shared hk).isInner
        have hruns3 : Runs s ids Shared r2 r' := by
          refine h3.runs (fun _ hk => (inner_of_shared hk).isInner) (by rw [hid2]; exact hid1')
            (Or.inr fun act hk => ?_)
          cases act <;> first | rfl | cases hk
        exact ⟨hruns2.trans (hruns3.mono (List.Subset.refl _) fun _ hk =>
            plan_of_inner (inner_of_shared hk)), hset3, hid3.trans (hid2.trans hid1),
          by rw [hphase3]; exact hphase2, hsucc3⟩

theorem emptyNodes_free (sim : SimState) : Free sim (emptyNodes sim) := by
  refine ⟨sim.addrs_nodup.filter _, fun a ha => ?_⟩
  obtain ⟨hmem, hnil⟩ := List.mem_filter.mp ha
  obtain ⟨n, hn⟩ := SimState.mem_addrs.mp hmem
  rw [hn] at hnil
  exact ⟨n, hn, by simpa using hnil⟩

/-- A task's handling, from the record right after its start: the task is
erased where it was scheduled, then placed. -/
theorem addModeltoSchedule_ok {t : Task} {ret : Ret} (htab : TableOK s table)
    (hset : Settled s r.cur) (h : s.addModeltoSchedule table t r = .ok (ret, r')) :
    ∃ r1, Runs s [t.id] Forgets (s.did (.start t) r) r1 ∧ Runs s [t.id] Plan r1 r' ∧
      (isModelScheduled t r.cur.sim = false → r1 = s.did (.start t) r) ∧ Settled s r'.cur ∧
      r'.cur.task.id = t.id ∧ (r'.cur.phase = .placing ∨ r'.cur.phase = .done) ∧
      (ret = .success → r'.cur.task.requestRate ≤ trpSlack) := by
  unfold addModeltoSchedule at h
  replace h := act_bind h
  have hset0 : Settled s (s.did (.start t) r).cur := ⟨hset.pending, hset.unchecked, hset.uncharged⟩
  have hid0 : (s.did (.start t) r).cur.task.id = t.id := rfl
  have hphase0 : (s.did (.start t) r).cur.phase = .placing := rfl
  have hadd0 : (s.did (.start t) r).cur.task.additionalRate = 0 := rfl
  have hsched : isModelScheduled t r.cur.sim =
      isModelScheduled (s.did (.start t) r).cur.task (s.did (.start t) r).cur.sim := rfl
  rw [hsched]
  generalize s.did (.start t) r = r0 at *
  have hmem0 : r0.cur.task.id ∈ [t.id] := by simp [hid0]
  replace h := getTask_bind h
  replace h := getSim_bind h
  split at h
  case isTrue hyes =>
    obtain ⟨⟨targets, tsTargets⟩, r1, hforget, h⟩ := Prog.bind_ok h
    obtain ⟨h1, -, hfree1, -⟩ := forgetTask_ok r0.cur.sim.addrs_nodup hforget
    obtain ⟨htask1, hset1⟩ := forgets_frame h1
    obtain ⟨hphase1, -⟩ := inner_frame h1 fun _ hk => inner_of_forgets hk
    replace h := getSim_bind h
    obtain ⟨h2, hset2, hid2, hphase2, hsucc2⟩ := adjustAndShare_ok [t.id] htab
      (hfree1.perm (sortNodes_perm _ _)) (hset1 hset0) (hphase1.trans hphase0)
      (by rw [htask1]; exact hmem0) (Or.inr (by rw [htask1]; exact hadd0)) h
    refine ⟨r1, h1.runs (fun _ hk => inner_of_forgets hk) hmem0 (Or.inl hphase0), h2, ?_, hset2,
      by rw [hid2, htask1, hid0], hphase2, hsucc2⟩
    intro hno
    rw [hyes] at hno
    cases hno
  case isFalse =>
    obtain ⟨est, hest, h⟩ := query_bind h
    have hestimated : ∀ n ∈ s.stdSort.sort cmpNodeDsc est,
        Estimated s r0.cur.task.id r0.cur.task.SLO n := fun n hn =>
      getEstimate_ok htab hest n ((s.stdSort.perm _ _).mem_iff.mp hn)
    have key : ∀ (fit : Ret) (r1 : Rec Core Action),
        (∃ r2, Steps s Inner r0 r2 ∧ Settled s r2.cur ∧ ((fit = .failure ∧ r1 = r2) ∨
          (fit = .success ∧ r1 = s.did .finish r2 ∧
            r2.cur.task.requestRate + r2.cur.task.additionalRate ≤ trpSlack))) →
        (fit = .success → (pure .success : Sched Ret) r1 = .ok (ret, r')) →
        (fit = .failure → (do
          let sim ← getSim
          s.adjustAndShare table (s.sortNodes sim (emptyNodes sim)) [] : Sched Ret) r1 =
            .ok (ret, r')) →
        Runs s [t.id] Plan r0 r' ∧ Settled s r'.cur ∧
          r'.cur.task.id = t.id ∧ (r'.cur.phase = .placing ∨ r'.cur.phase = .done) ∧
          (ret = .success → r'.cur.task.requestRate ≤ trpSlack) := by
      rintro fit r1 ⟨r2, h2, hset2, hend⟩ hsuccess hfailure
      obtain ⟨hphase2, -, hid2, -⟩ := inner_frame h2 fun _ hk => hk.isInner
      have hruns2 : Runs s [t.id] Plan r0 r2 :=
        (h2.runs (fun _ hk => hk.isInner) hmem0 (Or.inl hphase0)).mono (List.Subset.refl _)
          fun _ hk => plan_of_inner hk
      have hmem2 : r2.cur.task.id ∈ [t.id] := by rw [hid2]; exact hmem0
      rcases hend with ⟨rfl, rfl⟩ | ⟨rfl, rfl, hle⟩
      · have hk := getSim_bind (hfailure rfl)
        have hadd2 : s.useInterference = true ∨ r1.cur.task.additionalRate = 0 := by
          cases hs : s.useInterference with
          | true => exact Or.inl rfl
          | false => exact Or.inr (inner_additional h2 hs hadd0)
        obtain ⟨h3, hset3, hid3, hphase3, hsucc3⟩ := adjustAndShare_ok [t.id] htab
          ((emptyNodes_free _).perm (sortNodes_perm _ _)) hset2 (hphase2.trans hphase0) hmem2 hadd2 hk
        exact ⟨hruns2.trans h3, hset3, hid3.trans (hid2.trans hid0), hphase3, hsucc3⟩
      · obtain ⟨rfl, rfl⟩ := pure_end (hsuccess rfl)
        have hfinish : Guard s [t.id] r2.cur .finish :=
          ⟨⟨hphase2.trans hphase0, hset2.pending, hle⟩, fun _ => hmem2, fun hp => by cases hp⟩
        refine ⟨hruns2.trans (Moves.act ⟨hfinish, rfl⟩), ⟨hset2.pending, hset2.unchecked,
          hset2.uncharged⟩, hid2.trans hid0, Or.inr rfl, fun _ => ?_⟩
        simp [Action.apply, Core.setRate, trpSlack]
    refine ⟨r0, Moves.refl _, ?_⟩
    suffices hplan : Runs s [t.id] Plan r0 r' ∧ Settled s r'.cur ∧ r'.cur.task.id = t.id ∧
        (r'.cur.phase = .placing ∨ r'.cur.phase = .done) ∧
        (ret = .success → r'.cur.task.requestRate ≤ trpSlack) from
      ⟨hplan.1, fun _ => rfl, hplan.2⟩
    obtain ⟨fitCheck, -, h⟩ := query_bind h
    dsimp only at h
    cases fitCheck with
    | success =>
        obtain ⟨fit, r1, hfit, h⟩ := Prog.bind_ok h
        refine key fit r1 (allocateFit_ok hestimated hset0 hfit) ?_ ?_
        · rintro rfl
          exact h
        · rintro rfl
          exact h
    | failure =>
        obtain ⟨fit, r1, hp, h⟩ := Prog.bind_ok h
        obtain ⟨rfl, rfl⟩ := pure_end hp
        refine key .failure r1 ⟨r1, Moves.refl _, hset0, Or.inl ⟨rfl, rfl⟩⟩ ?_ (fun _ => h)
        intro hc
        cases hc

/-! ## Sessions -/

theorem start_runs (t : Task) (ids : List Int) (hset : Settled s r.cur) :
    Runs s ids OfPass r (s.did (.start t) r) :=
  Moves.act ⟨.top hset.uncharged rfl, Or.inr ⟨t, rfl⟩⟩

/-- The steps on one task, its start included. -/
theorem addModeltoSchedule_runs {t : Task} {ret : Ret} (htab : TableOK s table)
    (hset : Settled s r.cur) (h : s.addModeltoSchedule table t r = .ok (ret, r')) :
    Runs s [t.id] OfPass r r' ∧ Settled s r'.cur := by
  obtain ⟨r0, hforget, hplan, -, hset', -⟩ := addModeltoSchedule_ok htab hset h
  have hforget' : Runs s [t.id] OfPass (s.did (.start t) r) r0 :=
    hforget.mono (List.Subset.refl _) fun _ hk => Or.inl (task_of_forgets hk)
  have hplan' : Runs s [t.id] OfPass r0 r' :=
    hplan.mono (List.Subset.refl _) fun _ hk => Or.inl hk.ofTask
  exact ⟨(start_runs t _ hset).trans (hforget'.trans hplan'), hset'⟩

/-- One turn of the loop of `elasticPartitioning`: the table is completed, and
the first task that cannot be placed ends it. -/
theorem placeTasks_cons {t : Task} {ts : List Task} {ret : Ret} (htab : Built s table)
    (h : s.placeTasks table (t :: ts) r = .ok ((ret, table'), r')) :
    ∃ table1 ret1 r1, Built s table1 ∧ s.addModeltoSchedule table1 t r = .ok (ret1, r1) ∧
      ((ret1 = .failure ∧ ret = .failure ∧ table' = table1 ∧ r' = r1) ∨
        (ret1 = .success ∧ s.placeTasks table1 ts r1 = .ok ((ret, table'), r'))) := by
  unfold placeTasks at h
  obtain ⟨table1, htable1, h⟩ := query_bind h
  have htab1 : Built s table1 := by
    split at htable1
    · exact .init (n := s.numMaxGPU) htab htable1
    · obtain rfl := Except.ok.inj htable1
      exact htab
  obtain ⟨ret1, r1, hadd, h⟩ := Prog.bind_ok h
  refine ⟨table1, ret1, r1, htab1, hadd, ?_⟩
  cases ret1 with
  | failure =>
      obtain ⟨heq, rfl⟩ := pure_end h
      obtain ⟨rfl, rfl⟩ := Prod.mk.injEq .. |>.mp heq
      exact Or.inl ⟨rfl, rfl, rfl, rfl⟩
  | success => exact Or.inr ⟨rfl, h⟩

theorem placeTasks_ok {ts : List Task} {ret : Ret} (htab : Built s table)
    (hset : Settled s r.cur) (h : s.placeTasks table ts r = .ok ((ret, table'), r')) :
    Runs s (ts.map (·.id)) OfPass r r' ∧ Settled s r'.cur ∧ Built s table' := by
  induction ts generalizing table r with
  | nil =>
      obtain ⟨heq, rfl⟩ := pure_end h
      obtain ⟨-, rfl⟩ := Prod.mk.injEq .. |>.mp heq
      exact ⟨Moves.refl _, hset, htab⟩
  | cons t ts ih =>
      obtain ⟨table1, ret1, r1, htab1, hadd, hrest⟩ := placeTasks_cons htab h
      obtain ⟨hfirst, hset1⟩ := addModeltoSchedule_runs htab1.ok hset hadd
      have hruns1 : Runs s ((t :: ts).map (·.id)) OfPass r r1 := hfirst.mono (by simp) fun _ hk => hk
      rcases hrest with ⟨-, -, rfl, rfl⟩ | ⟨-, hrest⟩
      · exact ⟨hruns1, hset1, htab1⟩
      · obtain ⟨h2, hset2, htab2⟩ := ih htab1 hset1 hrest
        exact ⟨hruns1.trans (h2.mono (by simp) fun _ hk => hk), hset2, htab2⟩

/-- `elasticPartitioning` sorts the session and places its tasks. -/
theorem elasticPartitioning_inv {session sorted : List Task} {ret : Ret}
    (h : s.elasticPartitioning table session r = .ok ((ret, sorted, table'), r')) :
    sorted = s.stdSort.sort cmpTaskDsc session ∧
      s.placeTasks table sorted (s.did (.pass (sorted.map (·.id))) r) = .ok ((ret, table'), r') := by
  unfold elasticPartitioning at h
  replace h := act_bind h
  obtain ⟨⟨ret1, table1⟩, r1, hplace, h⟩ := Prog.bind_ok h
  obtain ⟨heq, rfl⟩ := pure_end h
  simp only [Prod.mk.injEq] at heq
  obtain ⟨rfl, rfl, rfl⟩ := heq
  exact ⟨rfl, hplace⟩

theorem sorted_perm (session : List Task) :
    (s.stdSort.sort cmpTaskDsc session).Perm session :=
  s.stdSort.perm _ _

abbrev Anything (_ : Action) : Prop := True

theorem elasticPartitioning_ok {session sorted : List Task} {ret : Ret} (htab : Built s table)
    (hset : Settled s r.cur)
    (h : s.elasticPartitioning table session r = .ok ((ret, sorted, table'), r')) :
    Runs s (session.map (·.id)) Anything r r' ∧ Settled s r'.cur ∧ Built s table' ∧
      sorted.Perm session := by
  obtain ⟨rfl, hplace⟩ := elasticPartitioning_inv h
  have hset0 : Settled s
      (s.did (.pass ((s.stdSort.sort cmpTaskDsc session).map (·.id))) r).cur :=
    ⟨hset.pending, hset.unchecked, hset.uncharged⟩
  obtain ⟨h1, hset1, htab1⟩ := placeTasks_ok htab hset0 hplace
  have hpass : Runs s (session.map (·.id)) Anything r
      (s.did (.pass ((s.stdSort.sort cmpTaskDsc session).map (·.id))) r) :=
    Moves.act ⟨.top trivial rfl, trivial⟩
  refine ⟨hpass.trans (h1.mono ?_ fun _ _ => trivial), hset1, htab1, sorted_perm session⟩
  exact ((sorted_perm session).map (·.id)).subset

/-- Tasks tried again are tasks of the session, with the rate they came with. -/
theorem retryTasks_mem {short : Task → Bool} {org : Int → Int} {flagged : List Int}
    {ts again : List Task} (h : retryTasks short org flagged ts = some again) :
    ∀ t ∈ again, ∃ t0 ∈ ts, short t0 = true ∧ t = createNewTask t0.id (org t0.id) t0.SLO 0 0 := by
  induction ts generalizing flagged again with
  | nil =>
      obtain rfl := Option.some.inj h
      simp
  | cons t ts ih =>
      unfold retryTasks at h
      split at h
      case isTrue hshort =>
        split at h
        · cases h
        · obtain ⟨rest, hrest, rfl⟩ := Option.map_eq_some_iff.mp h
          intro t' ht'
          rcases List.mem_cons.mp ht' with rfl | ht'
          · exact ⟨t, List.mem_cons_self .., hshort, rfl⟩
          · obtain ⟨t0, ht0, hs⟩ := ih hrest t' ht'
            exact ⟨t0, List.mem_cons_of_mem _ ht0, hs⟩
      case isFalse =>
        intro t' ht'
        obtain ⟨t0, ht0, hs⟩ := ih h t' ht'
        exact ⟨t0, List.mem_cons_of_mem _ ht0, hs⟩

/-- How the retry loop goes on after a pass over `session` that left `sorted`,
`table₁` and the record `r₁`. -/
inductive PassEnd (s : Scheduler) (fuel : Nat) (flagged : List Int) (session sorted : List Task)
    (table₁ : SatTable) (r₁ : Rec Core Action) :
    Ret → Ret → List Task → SatTable → Rec Core Action → Prop
  | failed : PassEnd s fuel flagged session sorted table₁ r₁ .failure .failure sorted table₁ r₁
  | plain : s.useInterference = false →
      PassEnd s fuel flagged session sorted table₁ r₁ .success .success sorted table₁ r₁
  | twice : s.useInterference = true →
      retryTasks (fallsShort session r₁.cur.sim) (orgRate session) flagged sorted = none →
      PassEnd s fuel flagged session sorted table₁ r₁ .success .failure sorted table₁ r₁
  | enough : s.useInterference = true →
      retryTasks (fallsShort session r₁.cur.sim) (orgRate session) flagged sorted = some [] →
      PassEnd s fuel flagged session sorted table₁ r₁ .success .success [] table₁ r₁
  | retry {t : Task} {again tasks : List Task} {ret : Ret} {table' : SatTable}
      {r' : Rec Core Action} : s.useInterference = true →
      retryTasks (fallsShort session r₁.cur.sim) (orgRate session) flagged sorted =
        some (t :: again) →
      s.passLoop fuel table₁ ((t :: again).map (·.id) ++ flagged) (t :: again) r₁ =
        .ok ((ret, tasks, table'), r') →
      PassEnd s fuel flagged session sorted table₁ r₁ .success ret tasks table' r'

/-- A retry loop that ends has made a pass. -/
theorem passLoop_cases {fuel : Nat} {flagged : List Int} {session tasks : List Task} {ret : Ret}
    (h : s.passLoop fuel table flagged session r = .ok ((ret, tasks, table'), r')) :
    ∃ k ret₁ sorted table₁ r₁, fuel = k + 1 ∧
      s.elasticPartitioning table session r = .ok ((ret₁, sorted, table₁), r₁) ∧
        PassEnd s k flagged session sorted table₁ r₁ ret₁ ret tasks table' r' := by
  cases fuel with
  | zero =>
      unfold passLoop at h
      obtain ⟨b, hb, -⟩ := Prog.ask_ok h
      cases hb
  | succ k =>
      unfold passLoop at h
      obtain ⟨⟨ret₁, sorted, table₁⟩, r₁, hpass, h⟩ := Prog.bind_ok h
      refine ⟨k, ret₁, sorted, table₁, r₁, rfl, hpass, ?_⟩
      cases ret₁ with
      | failure =>
          obtain ⟨heq, rfl⟩ := pure_end h
          cases heq
          exact .failed
      | success =>
          dsimp only at h
          split at h
          case isFalse hint =>
            obtain ⟨heq, rfl⟩ := pure_end h
            cases heq
            exact .plain (eq_false_of_ne_true hint)
          case isTrue hint =>
            replace h := getSim_bind h
            cases hretry : retryTasks (fallsShort session r₁.cur.sim) (orgRate session) flagged
                sorted with
            | none =>
                rw [hretry] at h
                obtain ⟨heq, rfl⟩ := pure_end h
                cases heq
                exact .twice hint hretry
            | some again =>
                rw [hretry] at h
                cases again with
                | nil =>
                    obtain ⟨heq, rfl⟩ := pure_end h
                    cases heq
                    exact .enough hint hretry
                | cons t again => exact .retry hint hretry h

theorem passLoop_ok {fuel : Nat} {flagged ids : List Int} {session tasks : List Task} {ret : Ret}
    (htab : Built s table) (hset : Settled s r.cur) (hids : ∀ t ∈ session, t.id ∈ ids)
    (h : s.passLoop fuel table flagged session r = .ok ((ret, tasks, table'), r')) :
    Runs s ids Anything r r' ∧ Settled s r'.cur ∧ Built s table' := by
  induction fuel using Nat.strong_induction_on generalizing table flagged session r with
  | h fuel ih =>
      obtain ⟨k, ret₁, sorted, table₁, r₁, rfl, hpass, hend⟩ := passLoop_cases h
      obtain ⟨h1, hset1, htab1, hperm⟩ := elasticPartitioning_ok htab hset hpass
      have hruns1 : Runs s ids Anything r r₁ := by
        refine h1.mono ?_ fun _ hk => hk
        intro id hid
        obtain ⟨t, ht, rfl⟩ := List.mem_map.mp hid
        exact hids t ht
      cases hend with
      | failed | plain | twice | enough => exact ⟨hruns1, hset1, htab1⟩
      | @retry t again _ _ _ _ _ hretry hnext =>
          have hids' : ∀ t' ∈ t :: again, t'.id ∈ ids := by
            intro t' ht'
            obtain ⟨t0, ht0, -, rfl⟩ := retryTasks_mem hretry t' ht'
            exact hids t0 (hperm.mem_iff.mp ht0)
          obtain ⟨h2, hset2, htab2⟩ := ih k (Nat.lt_succ_self k) htab1 hset1 hids' hnext
          exact ⟨hruns1.trans h2, hset2, htab2⟩

/-- `incrementalScehduling` sets up devices if there are none, then runs its
passes. -/
theorem incrementalScehduling_inv {session : List Task}
    {res : (Ret × List Task × SatTable) × Rec Core Action}
    (hset : Settled s r.cur) (h : s.incrementalScehduling table session r = .ok res) :
    ∃ r0, Settled s r0.cur ∧
      (r0 = r ∨ r.cur.sim.vGPUList = [] ∧
        r0 = s.did (.initDevs (s.initiateDevs r.cur.sim s.numMaxGPU).vGPUList) r) ∧
      s.passLoop 3 table [] session r0 = .ok res := by
  unfold incrementalScehduling at h
  replace h := getSim_bind h
  dsimp only at h
  by_cases hnil : r.cur.sim.vGPUList = []
  · rw [if_pos hnil] at h
    exact ⟨s.did (.initDevs (s.initiateDevs r.cur.sim s.numMaxGPU).vGPUList) r,
      ⟨hset.pending, hset.unchecked, hset.uncharged⟩, Or.inr ⟨hnil, rfl⟩, act_bind h⟩
  · rw [if_neg hnil] at h
    exact ⟨r, hset, Or.inl rfl, h⟩

theorem incrementalScehduling_ok (ids : List Int) {session tasks : List Task} {ret : Ret}
    (htab : Built s table) (hset : Settled s r.cur) (hids : ∀ t ∈ session, t.id ∈ ids)
    (h : s.incrementalScehduling table session r = .ok ((ret, tasks, table'), r')) :
    Runs s ids Anything r r' ∧ Settled s r'.cur ∧ Built s table' := by
  obtain ⟨r0, hset0, hr0, hloop⟩ := incrementalScehduling_inv hset h
  obtain ⟨h1, hset1, htab1⟩ := passLoop_ok htab hset0 hids hloop
  rcases hr0 with rfl | ⟨hnil, rfl⟩
  · exact ⟨h1, hset1, htab1⟩
  · have hinit : Runs s ids Anything r
        (s.did (.initDevs (s.initiateDevs r.cur.sim s.numMaxGPU).vGPUList) r) :=
      Moves.act ⟨.top ⟨hnil, rfl⟩ rfl, trivial⟩
    exact ⟨hinit.trans h1, hset1, htab1⟩

/-! ## `runScheduling` -/

theorem init_settled (sim : SimState) : Settled s (Core.init sim) := ⟨rfl, rfl, fun _ => rfl⟩

/-- What a call of `runScheduling` can do: give up where
`incrementalScehduling` does, or mark the parts as loaded and copy. -/
theorem runScheduling_cases {tasks : List Task} {prev out : SimState} {allowRepart : Bool}
    {o : Outcome} (h : s.runScheduling table tasks prev out allowRepart = .ok o) :
    ∃ ret tasks' table' r, (s.withRepart allowRepart).incrementalScehduling table tasks
        ⟨Core.init prev, []⟩ = .ok ((ret, tasks', table'), r) ∧
      ((ret = .failure ∧ o = ⟨.failure, tasks', table', r.cur.sim, out, r.log⟩) ∨
        (ret = .success ∧ ∃ r' : Rec Core Action,
          r' = (s.withRepart allowRepart).did .markLoaded r ∧
          o = ⟨.success, tasks', table', r'.cur.sim, (copyToOutput s r'.cur.sim).2, r'.log⟩)) := by
  simp only [runScheduling, Query.bind_ok] at h
  obtain ⟨⟨⟨ret, tasks', table'⟩, r⟩, hinc, h⟩ := h
  refine ⟨ret, tasks', table', r, hinc, ?_⟩
  cases ret with
  | failure => exact Or.inl ⟨rfl, (Query.pure_ok.mp h).symm⟩
  | success =>
      obtain ⟨⟨⟨⟩, r'⟩, hact, h⟩ := Query.bind_ok.mp h
      exact Or.inr ⟨rfl, r', act_end hact, (Query.pure_ok.mp h).symm⟩

/-- Marking the parts as loaded touches no task. -/
theorem markLoaded_runs (r : Rec Core Action) (ids : List Int) :
    Runs s ids Anything r (s.did .markLoaded r) :=
  Moves.act ⟨.top trivial rfl, trivial⟩

/-- A run of `runScheduling`: its log is that of a guarded run from the given
decision to the one it leaves behind; on success the output is a copy. -/
theorem runScheduling_ok {tasks : List Task} {prev out : SimState} {allowRepart : Bool}
    {o : Outcome} (htab : Built s table)
    (h : s.runScheduling table tasks prev out allowRepart = .ok o) :
    Built s o.table ∧ ∃ r' : Rec Core Action,
      Runs (s.withRepart allowRepart) (tasks.map (·.id)) Anything ⟨Core.init prev, []⟩ r' ∧
      o.log = r'.log ∧ o.prev = r'.cur.sim ∧
      (o.ret = .success → o.out = (copyToOutput s r'.cur.sim).2) ∧
      (o.ret = .failure → o.out = out) ∧ Settled s r'.cur := by
  obtain ⟨ret, tasks', table', r1, hinc, hend⟩ := runScheduling_cases h
  obtain ⟨h1, hset, htab1⟩ := incrementalScehduling_ok (s := s.withRepart allowRepart)
    (tasks.map (·.id)) (built_withRepart.mpr htab) (init_settled prev)
    (fun t ht => List.mem_map.mpr ⟨t, ht, rfl⟩) hinc
  replace htab1 := built_withRepart.mp htab1
  have hsettled : Settled s r1.cur := ⟨hset.pending, hset.unchecked, hset.uncharged⟩
  rcases hend with ⟨-, rfl⟩ | ⟨-, _, rfl, rfl⟩
  · exact ⟨htab1, r1, h1, rfl, rfl, fun hc => (by cases hc), fun _ => rfl, hsettled⟩
  · exact ⟨htab1, _, h1.trans (markLoaded_runs r1 _), rfl, rfl,
      fun _ => rfl, fun hc => (by cases hc), hsettled.pending, hsettled.unchecked, hsettled.uncharged⟩

end Scheduler

end Glet
