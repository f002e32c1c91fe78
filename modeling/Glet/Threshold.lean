import Glet.Entries

/-!
# The interference threshold

With interference on, `incrementalScehduling` compares the throughput of
every task of a pass with 0.85 of its rate and tries those that fall short
again, in a pass of their own. A task that passed the test is not looked at
again: whether it still has its throughput at the end depends on what the
later passes do to the nodes it is on.
-/

namespace Glet

open Recorder Scheduler

variable {s : Scheduler} {table table' : SatTable} {r r' : Rec Core Action}

/-! ## Tasks to be tried again -/

theorem retryTasks_eq {short : Task → Bool} {org : Int → Int} {flagged : List Int}
    {ts again : List Task} (h : retryTasks short org flagged ts = some again) :
    again = (ts.filter short).map fun t => createNewTask t.id (org t.id) t.SLO 0 0 := by
  induction ts generalizing flagged again with
  | nil =>
      obtain rfl := Option.some.inj h
      rfl
  | cons t ts ih =>
      unfold retryTasks at h
      split at h
      case isTrue hshort =>
        split at h
        · cases h
        · obtain ⟨rest, hrest, rfl⟩ := Option.map_eq_some_iff.mp h
          rw [List.filter_cons, if_pos hshort, List.map_cons, ← ih hrest]
      case isFalse hshort =>
        rw [List.filter_cons, if_neg hshort]
        exact ih h

/-- In a session with distinct ids `task_to_org_rate_mapping` holds the rate of
the task itself. -/
theorem orgRate_eq {session : List Task} (hnodup : (session.map (·.id)).Nodup) {t : Task}
    (ht : t ∈ session) : orgRate session t.id = t.requestRate := by
  obtain ⟨u, hu⟩ : ∃ u, session.reverse.find? (fun u => u.id == t.id) = some u := by
    rw [← Option.isSome_iff_exists, List.find?_isSome]
    exact ⟨t, List.mem_reverse.mpr ht, by simp⟩
  have hmem := List.mem_reverse.mp (List.mem_of_find?_eq_some hu)
  have hid : u.id = t.id := by simpa using List.find?_some hu
  have hut : u = t := List.inj_on_of_nodup_map hnodup hmem ht hid
  rw [orgRate, hu, hut]
  rfl

/-! ## Later passes -/

/-- The models that are not in the session of the current pass. -/
def offSession (c : Core) (id : Int) : Bool := decide (id ∉ c.session)

/-- The session does not change between two passes. -/
theorem Action.task_session {repart : Bool} {c : Core} {act : Action} (h : act.isTask = true) :
    (act.apply repart c).session = c.session := by
  cases act <;> try cases h
  case split a p => simp only [Action.apply]; split <;> rfl
  all_goals simp [Action.apply, Core.setRate]

/-- A pass leaves the throughput of the models outside its session, if no time
sharing or adjustment lowers it. -/
theorem elasticPartitioning_keeps {session sorted : List Task} {ret : Ret} {id : Int}
    (htab : Built s table) (hset : Settled s r.cur)
    (h : s.elasticPartitioning table session r = .ok ((ret, sorted, table'), r'))
    (hkeep : ∀ p ∈ r'.log, keepsOthers (offSession p.1) p.1 p.2 = true)
    (hid : id ∉ session.map (·.id)) :
    throughputOf id r.cur.sim ≤ throughputOf id r'.cur.sim := by
  obtain ⟨rfl, hplace⟩ := elasticPartitioning_inv h
  set ids := (s.stdSort.sort cmpTaskDsc session).map (·.id) with hids
  have hout : id ∉ ids := by
    rw [hids, ((sorted_perm session).map (·.id)).mem_iff]
    exact hid
  have hset0 : Settled s (s.did (.pass ids) r).cur := ⟨hset.pending, hset.unchecked, hset.uncharged⟩
  obtain ⟨hruns, -⟩ := placeTasks_ok htab hset0 hplace
  have hmoves := (hruns.strengthen (I := fun c => c.session = ids) (fun c act hc hg => by
    rcases hg.2 with hk | ⟨t, rfl⟩
    · rw [Action.task_session hk]
      exact hc
    · exact hc) rfl).1
  have hle : (s.did (.pass ids) r).cur.sim.total (Node.sumOf Task.throughput id) ≤
      r'.cur.sim.total (Node.sumOf Task.throughput id) := by
    refine sumOf_le_of_moves offSession (fun _ _ hle => hle) hmoves ?_ hkeep hout
    rintro c act ⟨hc, hg⟩
    refine ⟨hg.1, decide_eq_true ?_⟩
    rw [hc]
    exact hout
  rw [throughputOf_eq, throughputOf_eq]
  exact hle

/-- One turn of the retry loop, with interference on: the pass failed, or its
tasks are compared with the threshold. -/
theorem passLoop_turn {fuel : Nat} {flagged : List Int} {session tasks : List Task}
    (hi : s.useInterference = true)
    (h : s.passLoop fuel table flagged session r = .ok ((.success, tasks, table'), r')) :
    ∃ k sorted table1 r1 again, fuel = k + 1 ∧
      s.elasticPartitioning table session r = .ok ((.success, sorted, table1), r1) ∧
      again = (sorted.filter (fallsShort session r1.cur.sim)).map
        (fun t => createNewTask t.id (orgRate session t.id) t.SLO 0 0) ∧
      ((again = [] ∧ r' = r1) ∨ s.passLoop k table1 (again.map (·.id) ++ flagged) again r1 =
        .ok ((.success, tasks, table'), r')) := by
  obtain ⟨k, ret₁, sorted, table₁, r₁, rfl, hpass, hend⟩ := passLoop_cases h
  cases hend with
  | plain hoff => cases hi.symm.trans hoff
  | enough _ hretry =>
      exact ⟨k, sorted, _, _, [], rfl, hpass, retryTasks_eq hretry, Or.inl ⟨rfl, rfl⟩⟩
  | retry _ hretry hnext =>
      exact ⟨k, sorted, table₁, r₁, _, rfl, hpass, retryTasks_eq hretry, Or.inr hnext⟩

theorem again_ids_subset {session again : List Task} {sim : SimState}
    (h : again = ((s.stdSort.sort cmpTaskDsc session).filter (fallsShort session sim)).map
      (fun t => createNewTask t.id (orgRate session t.id) t.SLO 0 0)) :
    again.map (·.id) =
      ((s.stdSort.sort cmpTaskDsc session).filter (fallsShort session sim)).map (·.id) := by
  rw [h, List.map_map]
  rfl

theorem passLoop_keeps {fuel : Nat} {flagged : List Int} {session tasks : List Task} {id : Int}
    (hi : s.useInterference = true) (htab : Built s table) (hset : Settled s r.cur)
    (h : s.passLoop fuel table flagged session r = .ok ((.success, tasks, table'), r'))
    (hkeep : ∀ p ∈ r'.log, keepsOthers (offSession p.1) p.1 p.2 = true)
    (hid : id ∉ session.map (·.id)) :
    throughputOf id r.cur.sim ≤ throughputOf id r'.cur.sim := by
  induction fuel using Nat.strong_induction_on generalizing table flagged session r with
  | h fuel ih =>
      obtain ⟨k, sorted, table1, r1, again, rfl, hpass, hagain, hend⟩ := passLoop_turn hi h
      obtain ⟨-, hset1, htab1, -⟩ := elasticPartitioning_ok htab hset hpass
      rcases hend with ⟨-, rfl⟩ | hnext
      · exact elasticPartitioning_keeps htab hset hpass hkeep hid
      · have hruns : Runs s (again.map (·.id)) Anything r1 r' :=
          (passLoop_ok htab1 hset1 (fun t ht => List.mem_map_of_mem ht) hnext).1
        have hfirst := elasticPartitioning_keeps htab hset hpass
          (fun p hp => hkeep p (hruns.log_subset p hp)) hid
        obtain ⟨rfl, -⟩ := elasticPartitioning_inv hpass
        refine le_trans hfirst (ih k (Nat.lt_succ_self k) htab1 hset1 hnext ?_)
        rw [again_ids_subset hagain]
        intro hmem
        obtain ⟨t, ht, rfl⟩ := List.mem_map.mp hmem
        have hsess := (sorted_perm (s := s) session).mem_iff.mp (List.mem_filter.mp ht).1
        exact hid (List.mem_map_of_mem hsess)

/-! ## The threshold -/

/-- What the test says of a task that passes it, and what the later passes
keep, holds of every task of the session in the end. -/
theorem passLoop_each {Q : Int → Int → SimState → Prop} {fuel : Nat} {flagged : List Int}
    {session tasks : List Task} (hi : s.useInterference = true)
    (hlong : ∀ id (rate : Int) sim, (rate : ℚ) * (85 / 100) ≤ throughputOf id sim → Q id rate sim)
    (hlater : ∀ {id rate fuel table flagged session} {r : Rec Core Action}, Built s table →
      Settled s r.cur →
      s.passLoop fuel table flagged session r = .ok ((.success, tasks, table'), r') →
      id ∉ session.map (·.id) → Q id rate r.cur.sim → Q id rate r'.cur.sim)
    (htab : Built s table) (hset : Settled s r.cur) (hnodup : (session.map (·.id)).Nodup)
    (h : s.passLoop fuel table flagged session r = .ok ((.success, tasks, table'), r')) :
    ∀ t ∈ session, Q t.id t.requestRate r'.cur.sim := by
  induction fuel using Nat.strong_induction_on generalizing table flagged session r with
  | h fuel ih =>
      obtain ⟨k, sorted, table1, r1, again, rfl, hpass, hagain, hend⟩ := passLoop_turn hi h
      obtain ⟨-, hset1, htab1, -⟩ := elasticPartitioning_ok htab hset hpass
      obtain ⟨rfl, -⟩ := elasticPartitioning_inv hpass
      have hperm := sorted_perm (s := s) session
      have hpassed : ∀ t ∈ session, fallsShort session r1.cur.sim t = false →
          Q t.id t.requestRate r1.cur.sim := by
        intro t ht hnot
        have hge := of_decide_eq_false hnot
        rw [orgRate_eq hnodup ht] at hge
        exact hlong _ _ _ (not_lt.mp hge)
      rcases hend with ⟨rfl, rfl⟩ | hnext
      · intro t ht
        refine hpassed t ht ?_
        by_contra hshort
        have hmem : t ∈ (s.stdSort.sort cmpTaskDsc session).filter (fallsShort session r'.cur.sim) :=
          List.mem_filter.mpr ⟨hperm.mem_iff.mpr ht, by simpa using hshort⟩
        rw [List.map_eq_nil_iff.mp hagain.symm] at hmem
        cases hmem
      · have hids := again_ids_subset hagain
        have hsortedNodup : ((s.stdSort.sort cmpTaskDsc session).map (·.id)).Nodup :=
          ((hperm.map (·.id)).nodup_iff).mpr hnodup
        have hagainNodup : (again.map (·.id)).Nodup := by
          rw [hids]
          exact hsortedNodup.sublist (List.filter_sublist.map _)
        have hrest := ih k (Nat.lt_succ_self k) htab1 hset1 hagainNodup hnext
        intro t ht
        have hsorted := hperm.mem_iff.mpr ht
        cases hshort : fallsShort session r1.cur.sim t with
        | true =>
            have hmem : createNewTask t.id (orgRate session t.id) t.SLO 0 0 ∈ again := by
              rw [hagain]
              exact List.mem_map.mpr ⟨t, List.mem_filter.mpr ⟨hsorted, hshort⟩, rfl⟩
            have hbound := hrest _ hmem
            simp only [createNewTask] at hbound
            rwa [orgRate_eq hnodup ht] at hbound
        | false =>
            refine hlater htab1 hset1 hnext ?_ (hpassed t ht hshort)
            rw [hids]
            intro hmem
            obtain ⟨u, hu, huid⟩ := List.mem_map.mp hmem
            obtain ⟨husorted, hushort⟩ := List.mem_filter.mp hu
            have hut : u = t := List.inj_on_of_nodup_map hsortedNodup husorted hsorted huid
            rw [hut, hshort] at hushort
            cases hushort

/-- **Interference threshold.** With interference on, if
`incrementalScehduling` succeeds and no time sharing or adjustment lowers a
task that is not in the session of the pass it happens in, then every task of
the given list ends with at least 0.85 of its rate. -/
theorem threshold_holds {session tasks : List Task} {sim : SimState}
    (hi : s.useInterference = true) (htab : Built s table)
    (hnodup : (session.map (·.id)).Nodup)
    (h : s.incrementalScehduling table session ⟨Core.init sim, []⟩ =
      .ok ((.success, tasks, table'), r'))
    (hkeep : ∀ p ∈ r'.log, keepsOthers (offSession p.1) p.1 p.2 = true) {t : Task}
    (ht : t ∈ session) : (t.requestRate : ℚ) * (85 / 100) ≤ throughputOf t.id r'.cur.sim := by
  obtain ⟨r0, hset, -, hloop⟩ := incrementalScehduling_inv (init_settled sim) h
  exact passLoop_each (Q := fun id rate sim => (rate : ℚ) * (85 / 100) ≤ throughputOf id sim) hi
    (fun _ _ _ hle => hle)
    (fun htab hset hnext hid hle => le_trans hle (passLoop_keeps hi htab hset hnext hkeep hid))
    htab hset hnodup hloop t ht

/-- `plain` with `_useInterference`: no model disturbs another. -/
def Scheduler.interfering (latency : ℚ) (n : Int) : Scheduler :=
  { plain (profile [100] fun _ _ => latency) [100] n with useInterference := true }

/-- Model 0 falls short after the first pass and is tried again; the second
pass shares the node with model 1 without lowering it. -/
theorem threshold_after_retry :
    ∃ res, (interfering 2 1).incrementalScehduling (fun _ => none)
        [request 0 100 30, request 1 80 40] ⟨Core.init (interfering 2 1).setUp, []⟩ = .ok res ∧
      (80 : ℚ) * (85 / 100) ≤ throughputOf 1 res.2.cur.sim := by
  obtain ⟨⟨⟨ret, tasks, table⟩, r'⟩, hrun, hp⟩ := Query.of_returns
    (q := (interfering 2 1).incrementalScehduling (fun _ => none)
      [request 0 100 30, request 1 80 40] ⟨Core.init (interfering 2 1).setUp, []⟩)
    (p := fun res => decide (res.1.1 = .success ∧
      ∀ q ∈ res.2.log, keepsOthers (offSession q.1) q.1 q.2 = true)) (by decide +kernel)
  obtain ⟨rfl, hkeep⟩ := of_decide_eq_true hp
  have hbound := threshold_holds rfl .empty (by decide) hrun hkeep (t := request 1 80 40) (by simp)
  exact ⟨_, hrun, by simpa [request, createNewTask] using hbound⟩

/-- Model 1 passes the test after the first pass at 100 requests per second.
The second pass, for model 0 alone, shortens the duty cycle of their node and
leaves model 1 at 1000 / 13, less than 85. -/
theorem threshold_fails :
    ∃ res, (interfering 2 1).incrementalScehduling (fun _ => none)
        [request 0 75 30, request 1 100 30] ⟨Core.init (interfering 2 1).setUp, []⟩ = .ok res ∧
      res.1.1 = .success ∧
      ¬ ((100 : ℚ) * (85 / 100) ≤ throughputOf 1 res.2.cur.sim) := by
  obtain ⟨res, hrun, hp⟩ := Query.of_returns
    (q := (interfering 2 1).incrementalScehduling (fun _ => none)
      [request 0 75 30, request 1 100 30] ⟨Core.init (interfering 2 1).setUp, []⟩)
    (p := fun res => decide (res.1.1 = .success ∧
      ¬ ((100 : ℚ) * (85 / 100) ≤ throughputOf 1 res.2.cur.sim))) (by decide +kernel)
  obtain ⟨hret, hlt⟩ := of_decide_eq_true hp
  exact ⟨res, hrun, hret, hlt⟩

end Glet
