import Glet.Epoch
import Glet.Routing

/-!
# Decisions of the frontend over all epochs

The global scheduler has three decisions, the previous, the current and the next
one. `oneshotScheduling` makes the first, and each epoch may make another: from a
copy of the current one, or on devices set up anew, in one or several calls of
`runScheduling`.

`Lasting` is what a property of decisions must satisfy for all three to have it
at all times (`oneshotScheduling_holds`, `oracleScheduler_holds`). Being laid out
on the devices of the scheduler is such a property (`laid_lasting`).
-/

namespace Glet

open Recorder Scheduler

/-! ## Layouts -/

/-- The GPUs of a decision and their nodes, without what is known of memory. -/
def SimState.layout (sim : SimState) : List (Nat × DeviceType × List Node) :=
  sim.vGPUList.map fun g => (g.GPUID, g.TYPE, g.vNodeList)

namespace SimState

variable {s : Scheduler} {sim sim' : SimState}

theorem layout_length (h : sim'.layout = sim.layout) :
    sim'.vGPUList.length = sim.vGPUList.length := by
  simpa [layout] using congrArg List.length h

theorem layout_gpu (h : sim'.layout = sim.layout) {i : Nat} {g' : GPU}
    (hg' : sim'.vGPUList[i]? = some g') :
    ∃ g, sim.vGPUList[i]? = some g ∧ g'.GPUID = g.GPUID ∧ g'.TYPE = g.TYPE ∧
      g'.vNodeList = g.vNodeList := by
  have hi : sim.layout[i]? = some (g'.GPUID, g'.TYPE, g'.vNodeList) := by
    rw [← h, layout, List.getElem?_map, hg']
    rfl
  rw [layout, List.getElem?_map] at hi
  obtain ⟨g, hg, heq⟩ := Option.map_eq_some_iff.mp hi
  simp only [Prod.mk.injEq] at heq
  exact ⟨g, hg, heq.1.symm, heq.2.1.symm, heq.2.2.symm⟩

theorem layout_mapGPUs {f : GPU × Nat → GPU}
    (h : ∀ g i, (f (g, i)).GPUID = g.GPUID ∧ (f (g, i)).TYPE = g.TYPE ∧
      (f (g, i)).vNodeList = g.vNodeList) :
    layout { sim with vGPUList := sim.vGPUList.zipIdx.map f } = sim.layout := by
  rw [layout, layout, List.map_map]
  have hsame : ((fun g : GPU => (g.GPUID, g.TYPE, g.vNodeList)) ∘ f) =
      (fun g : GPU => (g.GPUID, g.TYPE, g.vNodeList)) ∘ Prod.fst := by
    funext ⟨g, i⟩
    simp only [Function.comp_apply, Prod.mk.injEq]
    exact h g i
  rw [hsame, ← List.map_map, List.zipIdx_map_fst]

theorem layout_initDevMems (h : s.initDevMems sim = .ok sim') : sim'.layout = sim.layout := by
  simp only [initDevMems, Query.bind_ok, Query.pure_ok] at h
  obtain ⟨-, -, rfl⟩ := h
  have hfrom : ∀ (types : List DeviceType) (gpus : List GPU),
      (s.initDevMemsFrom types gpus).map (fun g => (g.GPUID, g.TYPE, g.vNodeList)) =
        gpus.map fun g => (g.GPUID, g.TYPE, g.vNodeList) := by
    intro types gpus
    induction types generalizing gpus with
    | nil => rfl
    | cons type types ih =>
        cases gpus with
        | nil => rfl
        | cons g gpus =>
            rw [initDevMemsFrom, List.map_cons, List.map_cons, ih]
            rfl
  exact hfrom s.deviceTypes sim.vGPUList

/-- What is read of the loaded parts and of the memory changes no node. -/
theorem layout_updateGPUMemState {env : Environment} {n : Int}
    (h : s.updateGPUMemState env sim n = .ok sim') :
    sim'.layout = (if sim.vGPUList = [] then s.initiateDevs sim n else sim).layout := by
  simp only [Scheduler.updateGPUMemState, Query.bind_ok, Query.pure_ok] at h
  obtain ⟨-, -, sim1, hmems, rfl⟩ := h
  rw [updateDevMemUsage, layout_mapGPUs, layout_initDevMems hmems, layout_mapGPUs]
  · intro g i
    dsimp only
    split
    all_goals exact ⟨rfl, rfl, rfl⟩
  · intro g i
    dsimp only
    split
    all_goals exact ⟨rfl, rfl, rfl⟩

theorem layout_copied (s : Scheduler) (sim : SimState) : (copyToOutput s sim).1.layout = sim.layout := by
  simp only [layout, copyToOutput, List.map_map]
  rfl

end SimState

/-! ## The session -/

/-- The models of these ids exist. -/
abbrev KnownIds (ids : List Int) : Prop := ∀ id ∈ ids, ∃ m : Model, getModelName id = .ok m

theorem getModelID_known (name : String) : ∃ m : Model, getModelName (getModelID name) = .ok m := by
  unfold getModelID
  split
  case h_1 i hi =>
    obtain ⟨hlt, -⟩ := List.findIdx?_eq_some_iff_getElem.mp hi
    refine ⟨idToModelName[i], ?_⟩
    rw [getModelName, if_neg (not_lt.mpr (Int.natCast_nonneg i)), Int.toNat_natCast,
      List.getElem?_eq_getElem hlt]
  case h_2 => exact ⟨.bert, rfl⟩

namespace Scheduler

variable {s : Scheduler} {table table' : SatTable} {r r' : Rec Core Action}

theorem passLoop_ids {fuel : Nat} {flagged : List Int} {session tasks : List Task} {ret : Ret}
    (h : s.passLoop fuel table flagged session r = .ok ((ret, tasks, table'), r')) :
    tasks.map (·.id) ⊆ session.map (·.id) := by
  induction fuel using Nat.strong_induction_on generalizing table flagged session r with
  | h fuel ih =>
      obtain ⟨k, ret₁, sorted, table₁, r₁, rfl, hpass, hend⟩ := passLoop_cases h
      obtain ⟨rfl, -⟩ := elasticPartitioning_inv hpass
      have hsorted := ((sorted_perm (s := s) session).map (·.id)).subset
      cases hend with
      | failed => exact hsorted
      | plain => exact hsorted
      | twice => exact hsorted
      | enough => exact List.nil_subset _
      | retry _ hretry hnext =>
          intro id hid
          obtain ⟨t, ht, rfl⟩ := List.mem_map.mp (ih k (Nat.lt_succ_self k) hnext hid)
          obtain ⟨t0, ht0, -, rfl⟩ := retryTasks_mem hretry t ht
          exact hsorted (List.mem_map_of_mem (f := fun t => t.id) ht0)

theorem initiateDevsFrom_setMaxGPUs (n k : Int) (types : List DeviceType) (idx : Nat) :
    (s.setMaxGPUs n).initiateDevsFrom k types idx = s.initiateDevsFrom k types idx := by
  induction types generalizing idx with
  | nil => rfl
  | cons type types ih =>
      rw [initiateDevsFrom, initiateDevsFrom, ih]
      rfl

theorem initiateDevs_setMaxGPUs (n k : Int) (input : SimState) :
    (s.setMaxGPUs n).initiateDevs input k = s.initiateDevs input k := by
  rw [initiateDevs, initiateDevs, initiateDevsFrom_setMaxGPUs]
  rfl

/-- A call leaves no task with another id in the task vector. -/
theorem runScheduling_ids {tasks : List Task} {prev out : SimState} {repart : Bool} {o : Outcome}
    (h : s.runScheduling table tasks prev out repart = .ok o) :
    o.tasks.map (·.id) ⊆ tasks.map (·.id) := by
  obtain ⟨ret, tasks', table', r1, hinc, hend⟩ := runScheduling_cases h
  obtain ⟨r0, -, -, hloop⟩ := incrementalScehduling_inv (init_settled prev) hinc
  rcases hend with ⟨-, rfl⟩ | ⟨-, r', -, rfl⟩
  · exact passLoop_ids hloop
  · exact passLoop_ids hloop

end Scheduler

/-! ## Properties that last -/

/-- A property of decisions that nothing the global scheduler does takes away:
it says nothing about memory, a copy has it, empty devices have it, and every
guarded write for known models keeps it. -/
structure Lasting (s : Scheduler) (I : SimState → Prop) : Prop where
  frame : ∀ {sim sim'}, sim'.layout = sim.layout → I sim → I sim'
  copy : ∀ {sim}, I sim → I (copyToOutput s sim).2
  empty : I ⟨[], []⟩
  initiated : ∀ input n, I (s.initiateDevs input n)
  step : ∀ {n repart ids c act}, KnownIds ids →
    Guard ((s.setMaxGPUs n).withRepart repart) ids c act → I c.sim → I (act.apply repart c).sim

namespace Lasting

variable {s : Scheduler} {I : SimState → Prop} {table : SatTable}

theorem run {n : Int} {tasks : List Task} {sim out : SimState} {repart : Bool} {o : Outcome}
    (h : Lasting s I) (htab : Built s table) (hids : KnownIds (tasks.map (·.id))) (hI : I sim)
    (hrun : (s.setMaxGPUs n).runScheduling table tasks sim out repart = .ok o) :
    Built s o.table ∧ KnownIds (o.tasks.map (·.id)) ∧ I o.prev ∧ (o.ret = .success → I o.out) := by
  obtain ⟨htab', r', hruns, -, hprev, hout, -⟩ :=
    runScheduling_ok (built_setMaxGPUs.mpr htab) hrun
  have hend : I r'.cur.sim := by
    refine (hruns.strengthen (I := fun c => I c.sim) ?_ hI).2
    intro c act hc hg
    exact h.step hids hg.1 hc
  refine ⟨built_setMaxGPUs.mp htab', fun id hid => hids id (runScheduling_ids hrun hid), ?_,
    fun hret => ?_⟩
  · rw [hprev]
    exact hend
  · rw [hout hret]
    exact h.copy hend

theorem cleared {sim : SimState} (h : Lasting s I) : I { sim with vGPUList := [] } :=
  h.frame (show ({ sim with vGPUList := [] } : SimState).layout = SimState.layout ⟨[], []⟩ from rfl)
    h.empty

theorem updated {env : Environment} {sim sim' : SimState} {n : Int} (h : Lasting s I)
    (hI : I sim) (hrun : s.updateGPUMemState env sim n = .ok sim') : I sim' := by
  refine h.frame (SimState.layout_updateGPUMemState hrun) ?_
  split
  · exact h.initiated sim n
  · exact hI

end Lasting

/-! ## All three decisions -/

namespace Frontend

variable {s : Scheduler} {I : SimState → Prop} {f f' : Frontend} {g : Service}

structure Holds (s : Scheduler) (I : SimState → Prop) (f : Frontend) : Prop where
  built : Built s f.satTable
  prev : I f.prevState
  curr : I f.currState
  next : I f.nextState

/-- What the calls of an epoch leave of the decisions. -/
structure Turned (s : Scheduler) (f f' : Frontend) : Prop where
  built : Built s f.satTable → Built s f'.satTable
  prev : f'.prevState = f.prevState
  curr : f'.currState.layout = f.currState.layout
  next : f'.nextState = f.nextState

theorem Turned.refl (f : Frontend) : Turned s f f := ⟨id, rfl, rfl, rfl⟩

theorem Turned.trans {f'' : Frontend} (h : Turned s f f') (h' : Turned s f' f'') : Turned s f f'' :=
  ⟨h'.built ∘ h.built, h'.prev.trans h.prev, h'.curr.trans h.curr, h'.next.trans h.next⟩

theorem Turned.holds (h : Turned s f f') (hI : Lasting s I) (hf : f.Holds s I) : f'.Holds s I :=
  ⟨h.built hf.built, h.prev ▸ hf.prev, hI.frame h.curr hf.curr, h.next ▸ hf.next⟩

theorem known_of_names (names : List String) (rate : String → Int) (SLO : String → Int) :
    KnownIds ((names.map fun name => createNewTask (getModelID name) (rate name) (SLO name) 0 0).map
      (·.id)) := by
  intro id hid
  rw [List.map_map] at hid
  obtain ⟨name, -, rfl⟩ := List.mem_map.mp hid
  exact getModelID_known name

theorem known_setupAllTasks (arivRate : String → ℚ) (r : Rates) :
    KnownIds ((setupAllTasks g arivRate r).2.map (·.id)) :=
  known_of_names _ (fun _ => _) _

theorem known_setupTasks (b : Bool) (arivRate : String → ℚ) (r : Rates) :
    KnownIds ((setupTasks g b arivRate r).2.map (·.id)) :=
  known_of_names _ (fun _ => _) _

theorem known_sort {tasks : List Task} {lt : Task → Task → Bool}
    (h : KnownIds (tasks.map (·.id))) : KnownIds ((s.stdSort.sort lt tasks).map (·.id)) :=
  fun id hid => h id (((s.stdSort.perm lt tasks).map (·.id)).subset hid)

theorem fullRepartition_holds {env : Environment} {input output out : SimState} {ret : Ret}
    (hI : Lasting s I) (htab : Built s f.satTable)
    (h : f.fullRepartition s g env input output = .ok (ret, out, f')) :
    Turned s f f' ∧ (ret = .success → I out) := by
  simp only [fullRepartition, Query.bind_ok, Query.pure_ok, Prod.mk.injEq] at h
  obtain ⟨sim, hmem, o, hrun, rfl, rfl, rfl⟩ := h
  obtain ⟨htab', -, -, hout⟩ :=
    hI.run htab (known_sort (known_setupAllTasks _ _)) (hI.updated hI.cleared hmem) hrun
  exact ⟨⟨fun _ => htab', rfl, rfl, rfl⟩, hout⟩

theorem doScheduling_holds {env : Environment} {session session' : List Task}
    {prevOutput newOutput out : SimState} {ret : Ret} (hI : Lasting s I) (htab : Built s f.satTable)
    (hids : KnownIds (session.map (·.id))) (hprev : I prevOutput)
    (h : f.doScheduling s g env session prevOutput newOutput = .ok (ret, session', out, f')) :
    Turned s f f' ∧ KnownIds (session'.map (·.id)) ∧ (ret = .success → I out) := by
  unfold doScheduling at h
  dsimp only at h
  have hstart : ∃ f1 : Frontend, ∃ prev : SimState,
      (if s.getMaxGPUs ≠ prevOutput.vGPUList.length then
        (({ f with rates := { f.rates with sysFlush := true } } : Frontend),
          ({ prevOutput with vGPUList := [] } : SimState))
      else (f, prevOutput)) = (f1, prev) ∧ Turned s f f1 ∧ I prev := by
    split
    · exact ⟨_, _, rfl, ⟨id, rfl, rfl, rfl⟩, hI.cleared⟩
    · exact ⟨_, _, rfl, .refl f, hprev⟩
  obtain ⟨f1, prev, hstart, hturn, hIprev⟩ := hstart
  rw [hstart] at h
  dsimp only at h
  have htab1 := hturn.built htab
  obtain ⟨sim, hmem, h⟩ := Query.bind_ok.mp h
  have hIsim := hI.updated hIprev hmem
  split at h
  case isTrue =>
    obtain ⟨⟨ret1, out1, f2⟩, hfull, h⟩ := Query.bind_ok.mp h
    simp only [Query.pure_ok, Prod.mk.injEq] at h
    obtain ⟨rfl, rfl, rfl, rfl⟩ := h
    obtain ⟨hfull, hout⟩ := fullRepartition_holds
      (f := { f1 with rates := { f1.rates with sysFlush := false } }) hI htab1 hfull
    exact ⟨hturn.trans ⟨hfull.built, hfull.prev, hfull.curr, hfull.next⟩, hids, hout⟩
  case isFalse =>
    obtain ⟨o, hrun, h⟩ := Query.bind_ok.mp h
    obtain ⟨htab', hids', -, hout⟩ := hI.run htab1 hids hIsim hrun
    cases hret : o.ret with
    | success =>
        rw [hret] at h
        simp only [Query.pure_ok, Prod.mk.injEq] at h
        obtain ⟨rfl, rfl, rfl, rfl⟩ := h
        exact ⟨hturn.trans ⟨fun _ => htab', rfl, rfl, rfl⟩, hids', fun _ => hout hret⟩
    | failure =>
        rw [hret] at h
        obtain ⟨⟨ret1, out1, f2⟩, hfull, h⟩ := Query.bind_ok.mp h
        simp only [Query.pure_ok, Prod.mk.injEq] at h
        obtain ⟨rfl, rfl, rfl, rfl⟩ := h
        obtain ⟨hfull, hout⟩ := fullRepartition_holds (f := { f1 with satTable := o.table }) hI htab'
          hfull
        exact ⟨hturn.trans ⟨fun _ => hfull.built htab', hfull.prev, hfull.curr, hfull.next⟩, hids',
          hout⟩

theorem attempt_holds {env : Nat → Environment} {turn : Nat} {session session' : List Task}
    {out out' : SimState} {ret : Ret} (hI : Lasting s I) (hf : f.Holds s I)
    (hids : KnownIds (session.map (·.id)))
    (h : attempt s g env turn (f, session, out) = .ok (ret, f', session', out')) :
    Turned s f f' ∧ KnownIds (session'.map (·.id)) ∧ (ret = .success → I out') := by
  unfold attempt at h
  dsimp only at h
  obtain ⟨⟨ret1, session1, out1, f1⟩, hdo, h⟩ := Query.bind_ok.mp h
  simp only [Query.pure_ok, Prod.mk.injEq] at h
  obtain ⟨rfl, rfl, rfl, rfl⟩ := h
  obtain ⟨hturn, hids', hout⟩ := doScheduling_holds
    (f := { f with currState := (copyToOutput s f.currState).1 }) hI hf.built hids (hI.copy hf.curr) hdo
  exact ⟨⟨hturn.built, hturn.prev, hturn.curr.trans (SimState.layout_copied s _), hturn.next⟩, hids', hout⟩

theorem scaleLoop_holds {nGPUs : Int} {env : Nat → Environment} {fuel turn turns : Nat}
    {session session' : List Task} {out out' : SimState} {ret : Ret} (hI : Lasting s I)
    (hf : f.Holds s I) (hids : KnownIds (session.map (·.id)))
    (h : scaleLoop s nGPUs (attempt s g env) fuel turn (f, session, out) =
      .ok (ret, turns, f', session', out')) : Turned s f f' ∧ (ret = .success → I out') := by
  induction fuel generalizing turn f session out with
  | zero => cases h
  | succ fuel ih =>
      unfold scaleLoop at h
      obtain ⟨⟨ret1, f1, session1, out1⟩, hrun, h⟩ := Query.bind_ok.mp h
      obtain ⟨hturn, hids1, hout⟩ := attempt_holds hI hf hids hrun
      cases ret1 with
      | success =>
          simp only [Query.pure_ok, Prod.mk.injEq] at h
          obtain ⟨rfl, -, rfl, -, rfl⟩ := h
          exact ⟨hturn, hout⟩
      | failure =>
          dsimp only at h
          split at h
          case isTrue =>
            have hup : Turned s f1 (f1.scaleUp s) := ⟨id, rfl, rfl, rfl⟩
            obtain ⟨hrest, hout'⟩ := ih (hup.holds hI (hturn.holds hI hf)) hids1 h
            exact ⟨(hturn.trans hup).trans hrest, hout'⟩
          case isFalse =>
            simp only [Query.pure_ok, Prod.mk.injEq] at h
            obtain ⟨rfl, -, rfl, -⟩ := h
            exact ⟨hturn, fun hret => by cases hret⟩

theorem applyRouting_holds (hI : Lasting s I) (hf : f.Holds s I) : (f.applyRouting s).Holds s I := by
  unfold applyRouting
  split
  · exact ⟨hf.built, hI.copy hf.curr, hI.copy hf.next, hI.frame (SimState.layout_copied s _) hf.next⟩
  · exact hf

/-- **An epoch.** It keeps every lasting property of the decisions, and apart
from routing it changes nothing in the current one. -/
theorem oracleScheduler_holds {nGPUs : Int} {env : Nat → Environment} {fuel : Nat}
    {ret : Option Ret} (hI : Lasting s I) (hf : f.Holds s I)
    (h : f.oracleScheduler s g nGPUs env fuel = .ok (ret, f')) :
    f'.Holds s I ∧ f'.currState.content = (f.applyRouting s).currState.content := by
  have hroute := applyRouting_holds hI hf
  have hlayout : ∀ {sim sim' : SimState}, sim'.layout = sim.layout → sim'.content = sim.content := by
    intro sim sim' hsame
    have hcontent : ∀ sim : SimState, sim.content =
        sim.layout.map fun e => (e.1, e.2.1, e.2.2.map (SimState.copyNode 0)) := by
      intro sim
      simp only [SimState.content, SimState.layout, List.map_map]
      rfl
    rw [hcontent, hcontent, hsame]
  unfold oracleScheduler at h
  dsimp only at h
  split at h
  case isTrue =>
    simp only [Query.pure_ok, Prod.mk.injEq] at h
    obtain ⟨-, rfl⟩ := h
    exact ⟨⟨hroute.built, hroute.prev, hroute.curr, hroute.next⟩, rfl⟩
  case isFalse =>
    obtain ⟨⟨ret1, turns, f1, session, output⟩, hloop, h⟩ := Query.bind_ok.mp h
    have hcopied : Holds s I { f.applyRouting s with
        rates := (setupTasks g true (env 0).arivRate (f.applyRouting s).rates).1
        currState := (copyToOutput s (f.applyRouting s).currState).1 } :=
      ⟨hroute.built, hroute.prev, hI.frame (SimState.layout_copied s _) hroute.curr, hroute.next⟩
    obtain ⟨hturn, hout⟩ := scaleLoop_holds hI hcopied (known_setupTasks _ _ _) hloop
    have hend := hturn.holds hI hcopied
    have hcurr := hlayout (hturn.curr.trans (SimState.layout_copied s _))
    cases ret1 with
    | failure =>
        simp only [Query.pure_ok, Prod.mk.injEq] at h
        obtain ⟨-, rfl⟩ := h
        refine ⟨⟨hend.built, hend.prev, ?_, hend.next⟩, ?_⟩
        · refine hI.frame ?_ (hI.copy hroute.curr)
          rfl
        · exact SimState.content_copy s (f.applyRouting s).currState
    | success =>
        simp only [Query.pure_ok, Prod.mk.injEq] at h
        obtain ⟨-, rfl⟩ := h
        have hreduce : (f1.checkandReduceGPU s output).Holds s I ∧
            (f1.checkandReduceGPU s output).currState = f1.currState := by
          unfold checkandReduceGPU
          dsimp only
          split
          · exact ⟨⟨hend.built, hend.prev, hend.curr, hend.next⟩, rfl⟩
          · exact ⟨hend, rfl⟩
        refine ⟨⟨hreduce.1.built, hreduce.1.prev, hreduce.1.curr, hI.copy (hout rfl)⟩, ?_⟩
        show (f1.checkandReduceGPU s output).currState.content = _
        rw [hreduce.2]
        exact hcurr

/-! ## Initial scheduling -/

variable (s) in
/-- `oneshotScheduling`, up to the boot of the proxies; it leaves the maximal
number of GPUs as its last call had it. -/
def oneshotScheduling (f : Frontend) (g : Service) (nGPUs : Int) (arivRate : String → ℚ) :
    Query (Ret × Frontend) := do
  let (rates, tasks) := setupAllTasks g arivRate f.rates
  assert (1 ≤ nGPUs)
  let res ← s.oneshotFrom (nGPUs - 1).toNat 1 f.satTable tasks f.prevState f.currState
  match res.attempts.getLast? with
  | none => .error .badAccess
  | some last =>
      return (res.ret, { f with
        rates, numMaxGPU := res.attempts.length, satTable := last.table
        prevState := last.prev, currState := res.currState })

/-- The loop makes at least one call. -/
theorem oneshotFrom_attempts {left : Nat} {n : Int} {table : SatTable} {tasks : List Task}
    {prev curr : SimState} {res : Oneshot}
    (h : s.oneshotFrom left n table tasks prev curr = .ok res) : res.attempts ≠ [] := by
  cases left with
  | zero =>
      simp only [Scheduler.oneshotFrom, Query.bind_ok, Query.pure_ok] at h
      obtain ⟨o, -, rfl⟩ := h
      exact List.cons_ne_nil _ _
  | succ left =>
      simp only [Scheduler.oneshotFrom, Query.bind_ok] at h
      obtain ⟨o, -, h⟩ := h
      cases horet : o.ret with
      | success =>
          rw [horet] at h
          obtain rfl := Query.pure_ok.mp h
          exact List.cons_ne_nil _ _
      | failure =>
          rw [horet] at h
          obtain ⟨res', -, h⟩ := Query.bind_ok.mp h
          obtain rfl := Query.pure_ok.mp h
          exact List.cons_ne_nil _ _

theorem oneshotFrom_holds {left : Nat} {n : Int} {table : SatTable} {tasks : List Task}
    {prev curr : SimState} {res : Oneshot} {last : Outcome} (hI : Lasting s I) (htab : Built s table)
    (hids : KnownIds (tasks.map (·.id))) (hcurr : I curr)
    (h : s.oneshotFrom left n table tasks prev curr = .ok res)
    (hlast : res.attempts.getLast? = some last) :
    Built s last.table ∧ I last.prev ∧ I res.currState ∧
      (res.ret = .failure → res.currState = curr) := by
  have hattempt : ∀ {n table tasks prev curr o}, Built s table → KnownIds (tasks.map (·.id)) →
      I curr → s.attempt n table tasks prev curr = .ok o →
      Built s o.table ∧ KnownIds (o.tasks.map (·.id)) ∧ I o.prev ∧ I o.out ∧
        (o.ret = .failure → o.out = curr) := by
    intro n table tasks prev curr o htab hids hcurr hatt
    obtain ⟨sim, ⟨input, nDevs, hmems⟩, hrun⟩ := attempt_inv hatt
    have hsim : I sim := by
      refine hI.frame (SimState.layout_initDevMems hmems) ?_
      rw [Scheduler.initiateDevs_setMaxGPUs]
      exact hI.initiated input nDevs
    obtain ⟨htab', hids', hprev, hout⟩ := hI.run htab hids hsim hrun
    obtain ⟨-, -, -, -, -, -, hkeep, -⟩ := runScheduling_ok (built_setMaxGPUs.mpr htab) hrun
    refine ⟨htab', hids', hprev, ?_, hkeep⟩
    cases hret : o.ret with
    | success => exact hout hret
    | failure =>
        rw [hkeep hret]
        exact hcurr
  induction left generalizing n table tasks prev curr res with
  | zero =>
      simp only [Scheduler.oneshotFrom, Query.bind_ok, Query.pure_ok] at h
      obtain ⟨o, hatt, rfl⟩ := h
      obtain rfl := Option.some.inj hlast
      obtain ⟨htab', -, hprev, hout, hkeep⟩ := hattempt htab hids hcurr hatt
      exact ⟨htab', hprev, hout, hkeep⟩
  | succ left ih =>
      simp only [Scheduler.oneshotFrom, Query.bind_ok] at h
      obtain ⟨o, hatt, h⟩ := h
      obtain ⟨htab', hids', hprev, hout, hkeep⟩ := hattempt htab hids hcurr hatt
      cases horet : o.ret with
      | success =>
          rw [horet] at h
          obtain rfl := Query.pure_ok.mp h
          obtain rfl := Option.some.inj hlast
          exact ⟨htab', hprev, hout, fun hret => by cases hret⟩
      | failure =>
          rw [horet] at h
          obtain ⟨res', hrest, h⟩ := Query.bind_ok.mp h
          obtain rfl := Query.pure_ok.mp h
          have hlast' : res'.attempts.getLast? = some last := by
            rw [← hlast]
            exact (List.getLast?_cons_of_ne_nil (oneshotFrom_attempts hrest)).symm
          obtain ⟨htab2, hprev2, hcurr2, hkeep2⟩ := ih htab' hids' hout hrest hlast'
          exact ⟨htab2, hprev2, hcurr2, fun hret => (hkeep2 hret).trans (hkeep horet)⟩

/-- **The first decision.** -/
theorem oneshotScheduling_holds {nGPUs : Int} {arivRate : String → ℚ} {ret : Ret}
    (hI : Lasting s I) (hf : f.Holds s I)
    (h : f.oneshotScheduling s g nGPUs arivRate = .ok (ret, f')) :
    f'.Holds s I ∧ (ret = .failure → f'.currState = f.currState) := by
  unfold oneshotScheduling at h
  obtain ⟨-, -, h⟩ := Query.bind_ok.mp h
  obtain ⟨res, hloop, h⟩ := Query.bind_ok.mp h
  cases hlast : res.attempts.getLast? with
  | none =>
      rw [hlast] at h
      cases h
  | some last =>
      rw [hlast] at h
      simp only [Query.pure_ok, Prod.mk.injEq] at h
      obtain ⟨rfl, rfl⟩ := h
      obtain ⟨htab, hprev, hcurr, hkeep⟩ :=
        oneshotFrom_holds hI hf.built (known_setupAllTasks _ _) hf.curr hloop hlast
      exact ⟨⟨htab, hprev, hcurr, hf.next⟩, hkeep⟩

end Frontend

/-! ## Being laid out lasts -/

section Laid

open Devices.Routing

variable {s : Scheduler} {c : Core} {act : Action} {a : Addr} {f : Node → Node} {n : Node}

/-- Rewriting a node keeps its size, and puts at most the task at hand on it. -/
theorem Detail.writes_laid (hd : Detail s c act)
    (h : act.writes s.useRepartition c = some (a, f)) (hn : c.sim.node? a = some n) :
    ∀ t ∈ (f n).vTaskList, t.id = c.task.id ∨ ∃ t' ∈ n.vTaskList, t.id = t'.id := by
  intro t ht
  cases act <;> simp only [Action.writes, Option.some.injEq, Prod.mk.injEq, reduceCtorEq] at h
  all_goals obtain ⟨rfl, rfl⟩ := h
  case forget => exact Or.inr ⟨t, List.mem_of_mem_eraseP ht, rfl⟩
  case occupy => exact Or.inr ⟨t, ht, rfl⟩
  case fit b org checked =>
      obtain ⟨m, gpu, e, d, v, hm, -, -, -, hlet, -⟩ := hd.target
      simp only [copyToNode, hlet.tasks, List.mem_singleton] at ht
      rw [ht]
      exact Or.inl hlet.id_eq
  case prime => exact Or.inr ⟨t, ht, rfl⟩
  case place b kind t0 duty occ =>
      obtain ⟨m, -, -, hm, hnil, -⟩ := hd.target
      obtain rfl : n = m := Option.some.inj (hn.symm.trans hm)
      simp only [hnil, List.nil_append, List.mem_singleton] at ht
      rw [ht]
      exact Or.inl hd.id_eq
  case revert => cases ht
  case adjust b n' =>
      obtain ⟨-, m, hm, hadj⟩ := hd
      obtain rfl : n = m := Option.some.inj (hn.symm.trans hm)
      have hid : t.id ∈ n.vTaskList.map (·.id) := hadj.ids_eq ▸ List.mem_map_of_mem ht
      obtain ⟨t', ht', heq⟩ := List.mem_map.mp hid
      exact Or.inr ⟨t', ht', heq.symm⟩
  case wipe => cases ht
  case merged b t0 duty occ left =>
      obtain ⟨m, -, hm, hnil, -⟩ := hd.target
      obtain rfl : n = m := Option.some.inj (hn.symm.trans hm)
      simp only [hnil, List.nil_append, List.mem_singleton] at ht
      rw [ht]
      exact Or.inl hd.id_eq
  case share b t0 duty occ left =>
      rcases List.mem_append.mp ht with ht | ht
      · obtain ⟨t', ht', rfl⟩ := List.mem_map.mp ht
        exact Or.inr ⟨t', ht', rfl⟩
      · rw [List.mem_singleton.mp ht, hd.new_eq]
        exact Or.inl rfl

theorem length_le_of_getElem? {α β : Type} {l : List α} {l' : List β}
    (h : ∀ (i : Nat) (x' : β), l'[i]? = some x' → ∃ x : α, l[i]? = some x) : l'.length ≤ l.length := by
  by_contra hlt
  rw [not_le] at hlt
  obtain ⟨x, hx⟩ := h l.length _ (List.getElem?_eq_getElem hlt)
  rw [List.getElem?_eq_none le_rfl] at hx
  cases hx

theorem length_initiateDevsFrom (k : Int) (types : List DeviceType) (idx : Nat) :
    (s.initiateDevsFrom k types idx).length ≤ types.length := by
  induction types generalizing idx with
  | nil => exact le_rfl
  | cons type types ih =>
      rw [initiateDevsFrom, List.length_cons, List.length_cons]
      split
      · exact Nat.succ_le_succ (Nat.zero_le _)
      · exact Nat.succ_le_succ (ih _)

/-- No action adds a GPU, except to set up devices. -/
theorem Detail.length_le (hd : Detail s c act) (h : c.sim.vGPUList.length ≤ s.deviceTypes.length) :
    (act.apply s.useRepartition c).sim.vGPUList.length ≤ s.deviceTypes.length := by
  rcases Action.kinds s.useRepartition c act with ⟨a, f, hw⟩ | hq | ⟨gpus, rfl⟩ | ⟨a, part, rfl⟩ |
    ⟨k, rfl⟩
  · obtain ⟨n, hn⟩ := hd.written hw
    refine le_trans (length_le_of_getElem? fun i g' hg' => ?_) h
    obtain ⟨g, hg, -⟩ := Action.gpu_writes hw hn hg'
    exact ⟨g, hg⟩
  · refine le_trans (length_le_of_getElem? fun i g' hg' => ?_) h
    have hkeep := Action.quiet_gpu s.useRepartition c hq i
    rw [hg'] at hkeep
    obtain ⟨g, hg, -⟩ := Option.map_eq_some_iff.mp hkeep.symm
    exact ⟨g, hg⟩
  · obtain ⟨-, rfl⟩ := hd
    exact length_initiateDevsFrom ..
  · obtain ⟨n, gpu, hn, -⟩ := hd
    refine le_trans (length_le_of_getElem? fun i g' hg' => ?_) h
    simp only [Action.apply, hn, SimState.pushNode, SimState.setNode, SimState.getElem?_modifyGPU]
      at hg'
    cases hg : c.sim.vGPUList[i]? with
    | some g => exact ⟨g, rfl⟩
    | none => simp [hg] at hg'
  · refine le_trans (length_le_of_getElem? fun i g' hg' => ?_) h
    simp only [Action.apply, SimState.getElem?_modifyGPU] at hg'
    cases hg : c.sim.vGPUList[i]? with
    | some g => exact ⟨g, rfl⟩
    | none => simp [hg] at hg'

/-- Nodes are written while a task is handled. -/
theorem isTask_of_writes {repart : Bool} (h : act.writes repart c = some (a, f)) :
    act.isTask = true := by
  cases act <;> first | rfl | cases h

theorem AllGPUs.laid_apply {ids : List Int} (havail : AvailParts s.availParts)
    (hprofile : ProfileRange s) (hids : KnownIds ids) (hguard : Guard s ids c act)
    (h : AllGPUs (LaidGPU s.availParts) c.sim) :
    AllGPUs (LaidGPU s.availParts) (act.apply s.useRepartition c).sim := by
  have hd := hguard.1
  have hshaped : AllGPUs ShapedGPU (act.apply s.useRepartition c).sim :=
    AllGPUs.shaped_apply havail hprofile hd fun i g hg => (h i g hg).shaped
  have hrest : AllGPUs (fun i g => (∀ n ∈ g.vNodeList, n.id = i) ∧
      ∀ n ∈ g.vNodeList, n.resourcePntg ∈ s.availParts ∧ ∀ t ∈ n.vTaskList, Known t)
      (act.apply s.useRepartition c).sim := by
    refine AllGPUs.apply ?_ ?_ (fun hg => hg.1) hd (fun i g hg => ?_) ?_ ?_ ?_
    · rintro i g g' - - hnodes hg
      rw [hnodes]
      exact hg
    · rintro i g hg -
      refine ⟨hg.homed.id_eq, fun n hn => ?_⟩
      rw [hg.nodes_eq] at hn
      rw [List.mem_singleton.mp hn]
      exact ⟨havail.whole, nofun⟩
    · exact ⟨(h i g hg).shaped.id_eq, fun n hn => ⟨(h i g hg).offered n hn, (h i g hg).known n hn⟩⟩
    · rintro a f n g hw hn hj ⟨hid, hnodes⟩
      have hmem := List.mem_of_getElem? hj
      refine ⟨fun m hm => ?_, fun m hm => ?_⟩
      · rcases List.mem_or_eq_of_mem_set hm with hm | rfl
        · exact hid m hm
        · exact (hd.writes_id hw hn).1.trans (hid n hmem)
      · rcases List.mem_or_eq_of_mem_set hm with hm | rfl
        · exact hnodes m hm
        · have hpart : (f n).resourcePntg = n.resourcePntg :=
            congrArg Prod.fst (hd.writes_key hw hn).1
          refine ⟨hpart ▸ (hnodes n hmem).1, fun t ht => ?_⟩
          rcases hd.writes_laid hw hn t ht with heq | ⟨t', ht', heq⟩
          · rw [Known, heq]
            exact hids _ (hguard.2.1 (isTask_of_writes hw))
          · rw [Known, heq]
            exact (hnodes n hmem).2 t' ht'
    · rintro i j n part g hj hnil - hlt hprof ⟨hid, hnodes⟩
      have hmem := List.mem_of_getElem? hj
      obtain ⟨type, name, batch, v, hv⟩ := hprof.profiled
      have hpart := hprofile.part hv
      have hempty : ∀ t ∈ n.vTaskList, Known t := by
        rw [hnil]
        simp
      refine ⟨fun m hm => ?_, fun m hm => ?_⟩
      · rcases mem_split hm with hm | rfl | rfl
        · exact hid m hm
        · exact hid n hmem
        · exact hid n hmem
      · rcases mem_split hm with hm | rfl | rfl
        · exact hnodes m hm
        · exact ⟨hpart, hempty⟩
        · exact ⟨havail.closed part hpart (Int.ne_of_lt hlt), nofun⟩
    · rintro i g hnil - ⟨hid, hnodes⟩
      have hunified : ∀ m ∈ (unifyGPU g).vNodeList, ∃ m0 ∈ g.vNodeList,
          m = { m0 with dedupNum := 0, resourcePntg := 100 } := by
        intro m hm
        simp only [unifyGPU, List.mem_map] at hm
        obtain ⟨m0, hm0, rfl⟩ := hm
        exact ⟨m0, List.mem_of_mem_take hm0, rfl⟩
      refine ⟨fun m hm => ?_, fun m hm => ?_⟩
      · obtain ⟨m0, hm0, rfl⟩ := hunified m hm
        exact hid m0 hm0
      · obtain ⟨m0, hm0, rfl⟩ := hunified m hm
        exact ⟨havail.whole, (hnodes m0 hm0).2⟩
  exact fun i g hg => ⟨hshaped i g hg, fun n hn => ((hrest i g hg).2 n hn).1,
    fun n hn => ((hrest i g hg).2 n hn).2⟩

/-- **Every decision of the frontend can be routed** on a system that offers the
partition sizes of the scheduler. -/
theorem laid_lasting (havail : AvailParts s.availParts) (hprofile : ProfileRange s) :
    Lasting s (Laid s) where
  frame hsame h := by
    refine ⟨fun i g' hg' => ?_, ?_⟩
    · obtain ⟨g, hg, hid, htype, hnodes⟩ := SimState.layout_gpu hsame hg'
      obtain ⟨hshaped, hoffered, hknown⟩ := h.gpus i g hg
      refine ⟨⟨hid.trans hshaped.GPUID_eq, ?_, ?_, ?_⟩, ?_, ?_⟩
      · rw [hnodes]
        exact hshaped.id_eq
      · rw [hnodes]
        exact hshaped.split
      · rw [hnodes]
        exact hshaped.ids_nodup
      · rw [hnodes]
        exact hoffered
      · rw [hnodes]
        exact hknown
    · rw [SimState.layout_length hsame]
      exact h.length_le
  copy h := by
    have hshaped := AllGPUs.shaped_copy (s := s) fun i g hg => (h.gpus i g hg).shaped
    refine ⟨fun i g' hg' => ?_, ?_⟩
    · have hcopy := hshaped i g' hg'
      simp only [copyToOutput, List.getElem?_map] at hg'
      obtain ⟨g, hg, rfl⟩ := Option.map_eq_some_iff.mp hg'
      refine ⟨hcopy, fun n hn => ?_, fun n hn t ht => ?_⟩
      · obtain ⟨m, hm, rfl⟩ := List.mem_map.mp hn
        exact (h.gpus i g hg).offered m hm
      · obtain ⟨m, hm, rfl⟩ := List.mem_map.mp hn
        obtain ⟨t', ht', rfl⟩ := List.mem_map.mp ht
        exact (h.gpus i g hg).known m hm t' ht'
    · simpa [copyToOutput] using h.length_le
  empty := by
    refine ⟨fun i g hg => ?_, Nat.zero_le _⟩
    cases hg
  initiated input n := by
    refine ⟨fun i g hg => ?_, length_initiateDevsFrom ..⟩
    have hnew := Scheduler.initiateDevs_new hg
    refine ⟨hnew.shaped, fun m hm => ?_, fun m hm => ?_⟩
    · rw [hnew.nodes_eq] at hm
      rw [List.mem_singleton.mp hm]
      exact havail.whole
    · rw [hnew.nodes_eq] at hm
      rw [List.mem_singleton.mp hm]
      intro t ht
      cases ht
  step {n repart ids c act} hids hguard h :=
    ⟨AllGPUs.laid_apply (s := (s.setMaxGPUs n).withRepart repart) havail
      ⟨hprofile.batch, hprofile.part⟩ hids hguard h.gpus, hguard.1.length_le h.length_le⟩

end Laid

end Glet
