import Glet.Calls
import Glet.Effects
import Glet.Reach

/-!
# Reads of the duty cycle

`makeEmptyNode` sets every field of a node but `duty_cycle`. Two routines
read the field of nodes they did not fill themselves: `forgetTask`, which
recomputes the occupancy of the nodes that host tasks, and
`allocateTimeShare`, which looks at its candidates one by one. `ReadsDuty`
lists these reads.

A node that hosts tasks has been assigned its duty cycle (`Clocked`), and
every action keeps this, so the first kind of read is safe. The second is
not: the nodes that a split leaves behind are empty, and are candidates.
`dutiesAssigned_iff` says exactly when the loop gets to such a node.
-/

namespace Glet

open Recorder

/-! ## Nodes that host tasks -/

/-- A node that hosts tasks has a duty cycle. -/
def Clocked (n : Node) : Prop := n.vTaskList = [] ∨ n.dutyCycle ≠ none

theorem Clocked.empty {n : Node} (h : n.vTaskList = []) : Clocked n := Or.inl h

theorem Clocked.assigned {n : Node} (d : ℚ) (h : n.dutyCycle = some d) : Clocked n :=
  Or.inr (by rw [h]; exact Option.some_ne_none d)

theorem Clocked.of_subset {n n' : Node} (h : Clocked n) (hduty : n'.dutyCycle = n.dutyCycle)
    (hsub : n'.vTaskList ⊆ n.vTaskList) : Clocked n' := by
  rcases h with hnil | hd
  · rw [hnil] at hsub
    exact Or.inl (List.subset_nil.mp hsub)
  · exact Or.inr (hduty ▸ hd)

variable {s : Scheduler} {c : Core} {act : Action} {a : Addr} {f : Node → Node} {n : Node}

theorem Clocked.writes (hd : Detail s c act) (hw : act.writes s.useRepartition c = some (a, f))
    (hn : c.sim.node? a = some n) (h : Clocked n) : Clocked (f n) := by
  cases act <;> simp only [Action.writes, Option.some.injEq, Prod.mk.injEq, reduceCtorEq] at hw
  all_goals obtain ⟨rfl, rfl⟩ := hw
  case forget => exact h.of_subset rfl List.eraseP_subset
  case occupy => exact h.of_subset rfl (List.Subset.refl _)
  case fit b org checked =>
      obtain ⟨m, gpu, e, d, v, -, -, -, -, hlet, -⟩ := hd.target
      exact .assigned (n := copyToNode org n s.useRepartition) d hlet.duty
  case adjust =>
      obtain ⟨-, m, hm, hadj⟩ := hd
      obtain rfl : n = m := Option.some.inj (hn.symm.trans hm)
      rcases h with hnil | hduty
      · refine .empty (List.map_eq_nil_iff.mp (hadj.ids_eq.trans ?_))
        rw [hnil, List.map_nil]
      · exact Or.inr (hadj.duty_set hduty)
  case prime | place | revert | wipe | merged | share => exact .assigned _ rfl

namespace Scheduler

variable {r r' : Rec Core Action} {table : SatTable} {tasks : List Task} {prev : SimState}
  {repart : Bool}

/-- Nodes that host tasks keep a duty cycle along guarded actions. -/
theorem Reached.clocked (h : Reached s r r') (hr : Every Clocked r.cur.sim) :
    Every Clocked r'.cur.sim := by
  refine (h.strengthen (I := fun c => Every Clocked c.sim) ?_ hr).2
  rintro c act hc ⟨hd, -⟩
  exact hc.apply (fun _ => .empty) hd fun a f n hw hn hP => hP.writes hd hw hn

/-! ## The reads -/

/-- A call reads the duty cycle of a node: `forgetTask` to update its
occupancy, `allocateTimeShare` for the largest batch that fits in it. -/
inductive ReadsDuty (s : Scheduler) (r : Rec Core Action) : Call → Node → Prop
  | occupancy {a as n n' sum} : r.cur.sim.node? a = some n → n.vTaskList ≠ [] →
      (s.erased a n r).cur.sim.node? a = some n' →
      s.latencySum n' (s.erased a n r).cur.sim n'.vTaskList = .ok sum →
      ReadsDuty s r (.forgetTask (a :: as)) n'
  | share {a as n} : r.cur.sim.node? a = some n → checkContain r.cur.task.id n = false →
      n.occupancy < 1 → ReadsDuty s r (.shareFirst (a :: as)) n

/-- In a run of `runScheduling`, each duty cycle that is read was assigned. -/
def DutiesAssigned (s : Scheduler) (table : SatTable) (tasks : List Task) (prev : SimState)
    (repart : Bool) : Prop :=
  ∀ call r n, s.Enters table tasks prev repart call r →
    (s.withRepart repart).ReadsDuty r call n → n.dutyCycle ≠ none

/-- A candidate that time sharing finds no use for. -/
def PassedOver (s : Scheduler) (r : Rec Core Action) (a : Addr) : Prop :=
  ∃ n, r.cur.sim.node? a = some n ∧ s.shareNode r.cur.task n r.cur.sim = .ok none

/-- A node that time sharing would look at as `makeEmptyNode` left it. -/
structure Untouched (n : Node) : Prop where
  tasks : n.vTaskList = []
  occupancy : n.occupancy < 1
  duty : n.dutyCycle = none

/-- Each untouched candidate stands behind one that time sharing does not pass
over. -/
def Shielded (s : Scheduler) (r : Rec Core Action) (candidates : List Addr) : Prop :=
  ∀ pre a post n, candidates = pre ++ a :: post → r.cur.sim.node? a = some n → Untouched n →
    ∃ b ∈ pre, ¬ s.PassedOver r b

/-! ## The turns of time sharing -/

/-- Every look at a candidate belongs to a turn that passed over the candidates
before it. -/
theorem Visits.turn {start call : Call × Rec Core Action} (h : s.Visits start call)
    (hstart : ∀ as, start.1 ≠ .shareFirst as) {as : List Addr} (hcall : call.1 = .shareFirst as) :
    ∃ pre fuel, s.Visits start (.shareLoop (pre ++ as) (fuel + 1), call.2) ∧
      trpSlack < call.2.cur.task.requestRate + call.2.cur.task.additionalRate ∧
      ∀ b ∈ pre, s.PassedOver call.2 b := by
  induction h generalizing as with
  | refl => exact absurd hcall (hstart as)
  | tail hvisit hlast ih =>
      cases hlast
      case shareTurn candidates fuel r hrate =>
        obtain rfl := Call.shareFirst.inj hcall
        exact ⟨[], fuel, hvisit, not_le.mp hrate, List.forall_mem_nil _⟩
      case shareNext a rest r n hn hnode =>
        obtain rfl := Call.shareFirst.inj hcall
        obtain ⟨pre, fuel, hloop, hrate, hpre⟩ := ih rfl
        refine ⟨pre ++ [a], fuel, by rwa [List.append_assoc], hrate, fun b hb => ?_⟩
        rcases List.mem_append.mp hb with hb | hb
        · exact hpre b hb
        · rw [List.mem_singleton.mp hb]
          exact ⟨n, hn, hnode⟩
      all_goals cases hcall

/-- The candidates behind those passed over are looked at. -/
theorem visits_passed {pre : List Addr} (rest : List Addr)
    (h : ∀ b ∈ pre, s.PassedOver r b) :
    s.Visits (.shareFirst (pre ++ rest), r) (.shareFirst rest, r) := by
  induction pre with
  | nil => exact .refl
  | cons b pre ih =>
      obtain ⟨n, hn, hnode⟩ := h b (List.mem_cons_self ..)
      exact .head (.shareNext hn hnode) (ih fun b' hb' => h b' (List.mem_cons_of_mem _ hb'))

/-! ## The reads of a run -/

/-- What holds at every call of a run from a fresh decision. -/
theorem Enters.entry {call : Call} (htab : Built s table)
    (h : s.Enters table tasks prev repart call r) :
    call.Entry (s.withRepart repart) r ∧ Reached (s.withRepart repart) ⟨Core.init prev, []⟩ r :=
  Visits.entry h ⟨built_withRepart.mpr htab, init_settled prev⟩

theorem Enters.clocked {call : Call} (hfresh : Fresh s prev) (htab : Built s table)
    (h : s.Enters table tasks prev repart call r) : Every Clocked r.cur.sim :=
  (h.entry htab).2.clocked (hfresh.every fun _ => .empty)

/-- The occupancy update reads the duty cycle of a node that hosts tasks. -/
theorem erased_duty {n' : Node} (hclocked : Every Clocked r.cur.sim)
    (hn : r.cur.sim.node? a = some n) (hne : n.vTaskList ≠ [])
    (hn' : (s.erased a n r).cur.sim.node? a = some n') : n'.dutyCycle ≠ none := by
  have hduty : n.dutyCycle ≠ none := (hclocked a n hn).resolve_left hne
  unfold erased at hn'
  split at hn'
  case isTrue =>
    have heq : ((Action.forget a).apply s.useRepartition r.cur).sim.node? a = _ :=
      Action.node?_writes rfl a
    rw [if_pos rfl, hn, Option.map_some] at heq
    obtain rfl := Option.some.inj (heq.symm.trans hn')
    exact hduty
  case isFalse =>
    obtain rfl := Option.some.inj (hn.symm.trans hn')
    exact hduty

/-- **Unset duty cycles.** In a run of `runScheduling` from a fresh decision
every duty cycle that is read was assigned if and only if, in each turn that
time sharing takes, the candidates that are as `makeEmptyNode` left them stand
behind one that is not passed over. -/
theorem dutiesAssigned_iff (hfresh : Fresh s prev) (htab : Built s table) :
    s.DutiesAssigned table tasks prev repart ↔
      ∀ candidates fuel r, s.Enters table tasks prev repart (.shareLoop candidates (fuel + 1)) r →
        trpSlack < r.cur.task.requestRate + r.cur.task.additionalRate →
        (s.withRepart repart).Shielded r candidates := by
  constructor
  · intro hall candidates fuel r henters hrate pre a post n hsplit hn huntouched
    by_contra hpassed
    push Not at hpassed
    have hfirst : s.Enters table tasks prev repart (.shareFirst (a :: post)) r := by
      refine (Relation.ReflTransGen.tail henters (.shareTurn (not_le.mpr hrate))).trans ?_
      rw [hsplit]
      exact visits_passed _ hpassed
    have hfree : checkContain r.cur.task.id n = false := by
      rw [checkContain, huntouched.tasks]
      rfl
    exact hall _ _ _ hfirst (.share hn hfree huntouched.occupancy) huntouched.duty
  · intro hturns call r n henters hread hnone
    have hclocked := henters.clocked hfresh htab
    cases hread with
    | occupancy hn hne hn' => exact erased_duty hclocked hn hne hn' hnone
    | @share a as n hn hfree hocc =>
        obtain ⟨pre, fuel, hloop, hrate, hpre⟩ :=
          Visits.turn henters (fun _ h => Call.noConfusion h) rfl
        have hnil : n.vTaskList = [] := (hclocked a n hn).resolve_right (not_not.mpr hnone)
        obtain ⟨b, hb, hnot⟩ :=
          hturns _ fuel r hloop hrate pre a as n rfl hn ⟨hnil, hocc, hnone⟩
        exact hnot (hpre b hb)

/-! ## Two runs -/

/-- Two tasks of a pass, up to the candidates time sharing has for the second. -/
def secondShare (s : Scheduler) (table : SatTable) (t t' : Task) (r : Rec Core Action) :
    Query (List Addr × Rec Core Action) := do
  let table ← s.tableFor table t
  let (ret, r) ← s.addModeltoSchedule table t r
  assert (ret = .success)
  let table ← s.tableFor table t'
  let r := s.started t' r
  assert (isModelScheduled r.cur.task r.cur.sim = false)
  let estimate ← s.getEstimate table r.cur.task
  let fit ← s.checkFit (s.stdSort.sort cmpNodeDsc estimate) r.cur.sim
  assert (fit = .failure)
  let (_, r) ← s.readjust table (s.sortNodes r.cur.sim (emptyNodes r.cur.sim)) r
  let (ret, r) ← s.mergeResidue table r
  assert (ret = .failure)
  assert (s.useSelfTuning = false ∧ trpSlack < r.cur.task.requestRate + r.cur.task.additionalRate)
  let candidates ← s.shareCandidates r.cur.task r.cur.sim [] r.cur.sim.addrs
  return (s.shareOrder r.cur.sim candidates, r)

theorem visits_secondShare {t t' : Task} {as : List Addr}
    (h : s.secondShare table t t' r = .ok (as, r')) :
    s.Visits (.placeTasks table [t, t'], r) (.shareFirst as, r') := by
  simp only [secondShare, Query.bind_ok, Query.pure_ok, assert_ok, Prod.exists, Prod.mk.injEq] at h
  obtain ⟨table1, htab1, ret, r1, hadd, -, rfl, table2, htab2, -, hsched, est, hest, fit, hfit, -, rfl,
    ret1, r2, hre, ret2, r3, hmerge, -, rfl, -, ⟨htuning, hrate⟩, candidates, hcand, rfl, rfl⟩ := h
  refine .head (.placeRest htab1 hadd) (.head (.add htab2) (.head (.adjustUnfit hsched hest hfit)
    (.head (.share hre hmerge htuning) (.head (.shareTurns hcand) ?_))))
  exact .single (.shareTurn (not_le.mpr hrate))

/-- A task that `allocateFit` places. -/
def firstFits (s : Scheduler) (table : SatTable) (t : Task) (r : Rec Core Action) : Query Unit := do
  let table ← s.tableFor table t
  let r := s.started t r
  assert (isModelScheduled r.cur.task r.cur.sim = false)
  let estimate ← s.getEstimate table r.cur.task
  let fit ← s.checkFit (s.stdSort.sort cmpNodeDsc estimate) r.cur.sim
  assert (fit = .success)
  let (ret, _) ← s.allocateFit (s.stdSort.sort cmpNodeDsc estimate) r
  assert (ret = .success)

/-- The calls between a pass over two tasks, the first of which fits, and the time
sharing for the second: `r1` is the record between the two, `r` the one in which
the candidates `as` are found. -/
def LeadsToShare (s : Scheduler) (table table1 table2 : SatTable) (t t' : Task) (as : List Addr)
    (r0 r1 r : Rec Core Action) : Call × Rec Core Action → Prop
  | (.placeTasks tb ts, x) =>
      (tb = table ∧ ts = [t, t'] ∧ x = r0) ∨ (tb = table1 ∧ ts = [t'] ∧ x = r1) ∨ ts = []
  | (.addModeltoSchedule tb u, x) =>
      (tb = table1 ∧ u = t ∧ x = r0) ∨ (tb = table2 ∧ u = t' ∧ x = r1)
  | (.adjustAndShare tb given tsNodes, x) =>
      tb = table2 ∧ tsNodes = [] ∧ x = s.started t' r1 ∧
        given = s.sortNodes x.cur.sim (emptyNodes x.cur.sim)
  | (.allocateTimeShare tsNodes, x) => tsNodes = [] ∧ x = r
  | (.shareLoop candidates _, x) =>
      candidates = as ∧ x = r ∨ x.cur.task.requestRate + x.cur.task.additionalRate ≤ trpSlack
  | (.incrementalScehduling .., _) | (.passLoop .., _) | (.elasticPartitioning .., _) => False
  | _ => True

/-- Where the first of two tasks fits, only the second comes to time sharing:
once, if nothing is left of its rate afterwards. -/
theorem visits_shareLoop {t t' : Task} {as candidates : List Addr} {fuel : Nat}
    {r0 r3 : Rec Core Action} (hfirst : s.firstFits table t r0 = .ok ())
    (hsecond : s.secondShare table t t' r0 = .ok (as, r))
    (hshare : s.shareFirst as r = .ok (true, r3))
    (hrest : r3.cur.task.requestRate + r3.cur.task.additionalRate ≤ trpSlack)
    (h : s.Visits (.placeTasks table [t, t'], r0) (.shareLoop candidates (fuel + 1), r'))
    (hrate : trpSlack < r'.cur.task.requestRate + r'.cur.task.additionalRate) :
    candidates = as ∧ r' = r := by
  simp only [firstFits, secondShare, Query.bind_ok, Query.pure_ok, assert_ok, Prod.exists,
    Prod.mk.injEq] at hfirst hsecond
  obtain ⟨table1, htab1, -, hnot1, est1, hest1, fit1, hfit1, -, rfl, ret1, r1', halloc1, rfl⟩ :=
    hfirst
  obtain ⟨table1', htab1', ret, r1, hadd, -, rfl, table2, htab2, -, hnot2, est2, hest2, fit2, hfit2,
    -, rfl, ret2, r2, hre, ret3, r2', hmerge, -, rfl, -, -, found, hfound, has, rfl⟩ := hsecond
  obtain rfl := Except.ok.inj (htab1.symm.trans htab1')
  have hstep : ∀ c c', s.LeadsToShare table table1 table2 t t' as r0 r1 r2' c → s.Invokes c c' →
      s.LeadsToShare table table1 table2 t t' as r0 r1 r2' c' := by
    intro c c' hc hcall
    cases hcall
    case add tb u us x tb' htb =>
      rcases hc with ⟨rfl, hts, rfl⟩ | ⟨rfl, hts, rfl⟩ | hts <;> cases hts
      · exact Or.inl ⟨Except.ok.inj (htb.symm.trans htab1), rfl, rfl⟩
      · exact Or.inr ⟨Except.ok.inj (htb.symm.trans htab2), rfl, rfl⟩
    case placeRest tb u us x tb' x' htb hu =>
      rcases hc with ⟨rfl, hts, rfl⟩ | ⟨rfl, hts, rfl⟩ | hts <;> cases hts
      · obtain rfl := Except.ok.inj (htb.symm.trans htab1)
        exact Or.inr (Or.inl ⟨rfl, rfl, (Prod.mk.inj (Except.ok.inj (hu.symm.trans hadd))).2⟩)
      · exact Or.inr (Or.inr rfl)
    case adjustForgotten tb u x targets tsTargets x' hsched hforget =>
      rcases hc with ⟨-, rfl, rfl⟩ | ⟨-, rfl, rfl⟩
      · rw [hnot1] at hsched
        cases hsched
      · rw [hnot2] at hsched
        cases hsched
    case adjustUnfit tb u x est hsched hest hfit =>
      rcases hc with ⟨rfl, rfl, rfl⟩ | ⟨rfl, rfl, rfl⟩
      · obtain rfl := Except.ok.inj (hest.symm.trans hest1)
        cases hfit.symm.trans hfit1
      · exact ⟨rfl, rfl, rfl, rfl⟩
    case adjustMisfit tb u x est x' hsched hest hfit halloc =>
      rcases hc with ⟨rfl, rfl, rfl⟩ | ⟨rfl, rfl, rfl⟩
      · obtain rfl := Except.ok.inj (hest.symm.trans hest1)
        cases halloc.symm.trans halloc1
      · obtain rfl := Except.ok.inj (hest.symm.trans hest2)
        cases hfit.symm.trans hfit2
    case share tb given tsNodes x ret' x' x'' hread hmerged hplain =>
      obtain ⟨rfl, rfl, rfl, rfl⟩ := hc
      obtain ⟨rfl, rfl⟩ := Prod.mk.inj (Except.ok.inj (hread.symm.trans hre))
      exact ⟨rfl, (Prod.mk.inj (Except.ok.inj (hmerged.symm.trans hmerge))).2⟩
    case shareTurns tsNodes x candidates hcand =>
      obtain ⟨rfl, rfl⟩ := hc
      obtain rfl := Except.ok.inj (hcand.symm.trans hfound)
      exact Or.inl ⟨has, rfl⟩
    case shareAgain candidates fuel x x' hx hagain =>
      obtain ⟨rfl, rfl⟩ := hc.resolve_right hx
      obtain ⟨-, rfl⟩ := Prod.mk.inj (Except.ok.inj (hagain.symm.trans hshare))
      exact Or.inr hrest
    all_goals first | exact hc.elim | trivial
  have hend : ∀ c, s.Visits (.placeTasks table [t, t'], r0) c →
      s.LeadsToShare table table1 table2 t t' as r0 r1 r2' c := by
    intro c hc
    induction hc with
    | refl => exact Or.inl ⟨rfl, rfl, rfl⟩
    | tail _ hlast ih => exact hstep _ _ ih hlast
  exact (hend _ h).resolve_right (not_le.mpr hrate)

/-- Without interference there is one pass. -/
theorem Enters.pass {call : Call} (hdev : prev.vGPUList ≠ []) (hplain : s.useInterference = false)
    (h : s.Enters table tasks prev repart call r) (hshare : ∃ as fuel, call = .shareLoop as fuel) :
    (s.withRepart repart).Visits (.placeTasks table (s.stdSort.sort cmpTaskDsc tasks),
      s.did (.pass ((s.stdSort.sort cmpTaskDsc tasks).map (·.id))) ⟨Core.init prev, []⟩)
      (call, r) := by
  obtain ⟨as, fuel, rfl⟩ := hshare
  rcases h.cases_head with heq | ⟨c1, hcall, h⟩
  · cases heq
  · cases hcall
    case passesOnNew hnone => exact absurd hnone hdev
    case passes =>
      rcases h.cases_head with heq | ⟨c2, hcall, h⟩
      · cases heq
      · cases hcall
        case passAgain hdisturbed _ _ =>
          cases hplain.symm.trans hdisturbed
        case pass =>
          rcases h.cases_head with heq | ⟨c3, hcall, h⟩
          · cases heq
          · cases hcall
            exact h

/-- One GPU for two models of 5 ms. -/
def roomy : Scheduler := plain (profile [100] fun _ _ => 5) [100] 1

/-- Both models want 20 requests a second. The second shares the GPU that the
first was given. -/
theorem dutiesAssigned_sharing :
    DutiesAssigned roomy (fun _ => none) [request 0 20 100, request 1 20 100] roomy.setUp true ∧
      ∃ as r n, roomy.Enters (fun _ => none) [request 0 20 100, request 1 20 100] roomy.setUp true
          (.shareFirst as) r ∧ roomy.ReadsDuty r (.shareFirst as) n := by
  set r0 : Rec Core Action := roomy.did (.pass [1, 0]) ⟨Core.init roomy.setUp, []⟩
  obtain ⟨⟨as, r⟩, hrun, hp⟩ := Query.of_returns
    (q := roomy.secondShare (fun _ => none) (request 1 20 100) (request 0 20 100) r0)
    (p := fun x => decide (x.1 = [⟨0, 0⟩] ∧
      Query.returns (roomy.shareFirst x.1 x.2) (fun y => decide (y.1 = true ∧
        y.2.cur.task.requestRate + y.2.cur.task.additionalRate ≤ trpSlack)) = true ∧
      ((x.2.cur.sim.node? ⟨0, 0⟩).map fun n =>
        (checkContain x.2.cur.task.id n, decide (n.occupancy < 1), n.vTaskList.length)) =
          some (false, true, 1)))
    (by decide +kernel)
  obtain ⟨rfl, hfirst, hnode⟩ := of_decide_eq_true hp
  obtain ⟨⟨b, r3⟩, hshare, hrest⟩ := Query.of_returns hfirst
  obtain ⟨rfl, hrest⟩ := of_decide_eq_true hrest
  obtain ⟨n, hn, hread⟩ := Option.map_eq_some_iff.mp hnode
  simp only [Prod.mk.injEq, decide_eq_true_eq] at hread
  obtain ⟨hfree, hocc, htasks⟩ := hread
  constructor
  · refine (dutiesAssigned_iff (setUp_fresh rfl) .empty).mpr fun candidates fuel r' henters hrate => ?_
    obtain ⟨rfl, rfl⟩ := visits_shareLoop (by decide +kernel) hrun hshare hrest
      (henters.pass (by decide) rfl ⟨_, _, rfl⟩) hrate
    intro pre a post n' hsplit hn' huntouched
    obtain ⟨rfl, rfl, rfl⟩ : pre = [] ∧ (⟨0, 0⟩ : Addr) = a ∧ [] = post := by
      cases pre with
      | nil => simpa using hsplit
      | cons b pre => simp at hsplit
    obtain rfl := Option.some.inj (hn.symm.trans hn')
    rw [huntouched.tasks] at htasks
    cases htasks
  · refine ⟨[⟨0, 0⟩], r, n, ?_, .share hn hfree hocc⟩
    exact .head (.passes (by decide)) (.head .pass (.head .place (visits_secondShare hrun)))

/-- A model that runs well on 80 % of a GPU, and not within its deadline on the
20 % next to it. -/
def leftover : Scheduler :=
  plain (profile [100, 80, 20] fun _ part => if part = 100 then 9 else if part = 80 then 10 else 45)
    [100, 80, 20] 1

/-- The first task takes 80 % of the GPU. The second fits nowhere, `readjust`
gives up on the 20 % and `mergeResidue` finds nothing to merge; time sharing
passes over the 80 % and looks at the node that the split left behind. -/
theorem unset_duty_read :
    Fresh leftover leftover.setUp ∧
      ¬ leftover.DutiesAssigned (fun _ => none) [request 0 20 40, request 1 20 40] leftover.setUp
        true := by
  refine ⟨setUp_fresh rfl, fun hassigned => ?_⟩
  set r0 : Rec Core Action := leftover.did (.pass [1, 0]) ⟨Core.init leftover.setUp, []⟩
  obtain ⟨⟨as, r⟩, hrun, hp⟩ := Query.of_returns
    (q := leftover.secondShare (fun _ => none) (request 1 20 40) (request 0 20 40) r0)
    (p := fun x => decide (x.1 = [⟨0, 0⟩, ⟨0, 1⟩] ∧
      ((x.2.cur.sim.node? ⟨0, 0⟩).map fun n =>
        (leftover.shareNode x.2.cur.task n x.2.cur.sim).returns (· = none)) = some true ∧
      ((x.2.cur.sim.node? ⟨0, 1⟩).map fun n =>
        (checkContain x.2.cur.task.id n, n.occupancy, n.dutyCycle)) = some (false, 0, none)))
    (by decide +kernel)
  obtain ⟨rfl, hfirst, hsecond⟩ := of_decide_eq_true hp
  obtain ⟨n, hn, hnode⟩ := Option.map_eq_some_iff.mp hfirst
  obtain ⟨n', hn', hread⟩ := Option.map_eq_some_iff.mp hsecond
  obtain ⟨found, hshare, hfound⟩ := Query.of_returns hnode
  obtain rfl := of_decide_eq_true hfound
  simp only [Prod.mk.injEq] at hread
  obtain ⟨hfree, hocc, hduty⟩ := hread
  have hvisits : leftover.Enters (fun _ => none) [request 0 20 40, request 1 20 40]
      leftover.setUp true (.shareFirst [⟨0, 1⟩]) r := by
    refine .head (.passes (by decide)) (.head .pass (.head .place ?_))
    exact (visits_secondShare hrun).trans (.single (.shareNext hn hshare))
  exact hassigned _ _ _ hvisits (.share hn' hfree (hocc ▸ zero_lt_one)) hduty

end Scheduler

end Glet
