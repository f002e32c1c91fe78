import Glet.Beacons
import Glet.KeptSizes

/-!
# Proxies over the epochs

An epoch schedules what has changed on a copy of the current decision, without
repartitioning, and reschedules everything from whole GPUs only if that fails or
a flush is asked for. So unless there was a full repartition, the next decision
uses the proxies of the current one, and no proxy has to be started or stopped
(`proxies_kept`).
-/

namespace Glet

open Recorder Scheduler

namespace Frontend

variable {s : Scheduler} {f f' : Frontend} {g : Service} {nGPUs : Int}

/-- The decision was made by a call of `fullRepartition` for these targets. -/
def Repartitioned (s : Scheduler) (g : Service) (tgt : String → ℚ) (decision : SimState) : Prop :=
  ∃ (f f' : Frontend) (env : Environment) (input output : SimState),
    (∀ name, f.rates.tgt name = tgt name) ∧
      f.fullRepartition s g env input output = .ok (.success, decision, f')

theorem lasting_true : Lasting s fun _ => True :=
  ⟨fun _ _ => trivial, fun _ => trivial, trivial, fun _ _ => trivial, fun _ _ _ => trivial⟩

/-- What an incremental call has kept, or a full repartition has made. -/
def Keeps (s : Scheduler) (g : Service) (tgt : String → ℚ) (sim decision : SimState) : Prop :=
  decision.sizes = sim.sizes ∨ Repartitioned s g tgt decision

theorem Keeps.of_tgt {tgt tgt' : String → ℚ} {sim decision : SimState}
    (h : Keeps s g tgt sim decision) (heq : ∀ name, tgt name = tgt' name) :
    Keeps s g tgt' sim decision := by
  rwa [← funext heq]

theorem doScheduling_keeps {env : Environment} {session session' : List Task}
    {prevOutput newOutput out : SimState} (htab : Built s f.satTable) (hgpus : 0 < s.getMaxGPUs)
    (h : f.doScheduling s g env session prevOutput newOutput =
      .ok (.success, session', out, f')) : Keeps s g f.rates.tgt prevOutput out := by
  unfold doScheduling at h
  dsimp only at h
  split at h
  case isTrue hmore =>
    obtain ⟨sim, -, h⟩ := Query.bind_ok.mp h
    rw [if_pos rfl] at h
    obtain ⟨⟨ret1, out1, f2⟩, hfull, h⟩ := Query.bind_ok.mp h
    simp only [Query.pure_ok, Prod.mk.injEq] at h
    obtain ⟨rfl, -, rfl, -⟩ := h
    refine Or.inr ⟨_, _, _, _, _, ?_, hfull⟩
    exact fun _ => rfl
  case isFalse hsame =>
    obtain ⟨sim, hmem, h⟩ := Query.bind_ok.mp h
    have hsome : prevOutput.vGPUList ≠ [] := by
      intro hnil
      rw [hnil, List.length_nil] at hsame
      omega
    have hlayout := SimState.layout_updateGPUMemState hmem
    rw [if_neg hsome] at hlayout
    have hsim : sim.vGPUList ≠ [] := by
      intro hnil
      rw [SimState.layout, SimState.layout, hnil] at hlayout
      exact hsome (List.map_eq_nil_iff.mp hlayout.symm)
    split at h
    case isTrue =>
      obtain ⟨⟨ret1, out1, f2⟩, hfull, h⟩ := Query.bind_ok.mp h
      simp only [Query.pure_ok, Prod.mk.injEq] at h
      obtain ⟨rfl, -, rfl, -⟩ := h
      refine Or.inr ⟨_, _, _, _, _, ?_, hfull⟩
      exact fun _ => rfl
    case isFalse =>
      obtain ⟨o, hrun, h⟩ := Query.bind_ok.mp h
      cases hret : o.ret with
      | success =>
          rw [hret] at h
          simp only [Query.pure_ok, Prod.mk.injEq] at h
          obtain ⟨-, -, rfl, -⟩ := h
          have hsizes := (runScheduling_sizes (built_setMaxGPUs.mpr htab) hsim hrun).2 hret
          exact Or.inl (hsizes.trans (SimState.sizes_of_layout hlayout))
      | failure =>
          rw [hret] at h
          obtain ⟨⟨ret1, out1, f2⟩, hfull, h⟩ := Query.bind_ok.mp h
          simp only [Query.pure_ok, Prod.mk.injEq] at h
          obtain ⟨rfl, -, rfl, -⟩ := h
          refine Or.inr ⟨_, _, _, _, _, ?_, hfull⟩
          exact fun _ => rfl

theorem attempt_keeps {env : Nat → Environment} {turn : Nat} {session session' : List Task}
    {out out' : SimState} (htab : Built s f.satTable) (hgpus : 0 < s.getMaxGPUs)
    (h : attempt s g env turn (f, session, out) = .ok (.success, f', session', out')) :
    Keeps s g f.rates.tgt f.currState out' := by
  unfold attempt at h
  dsimp only at h
  obtain ⟨⟨ret1, session1, out1, f1⟩, hdo, h⟩ := Query.bind_ok.mp h
  simp only [Query.pure_ok, Prod.mk.injEq] at h
  obtain ⟨rfl, -, -, rfl⟩ := h
  have hkeeps := doScheduling_keeps
    (f := { f with currState := (copyToOutput s f.currState).1 }) htab hgpus hdo
  rw [Keeps, SimState.sizes_copy] at hkeeps
  exact hkeeps

theorem scaleLoop_keeps {env : Nat → Environment} {fuel turn turns : Nat}
    {session session' : List Task} {out out' : SimState} (htab : Built s f.satTable)
    (hgpus : 0 < s.getMaxGPUs) (hids : KnownIds (session.map (·.id)))
    (h : scaleLoop s nGPUs (attempt s g env) fuel turn (f, session, out) =
      .ok (.success, turns, f', session', out')) : Keeps s g f.rates.tgt f.currState out' := by
  induction fuel generalizing turn f session out with
  | zero => cases h
  | succ fuel ih =>
      unfold scaleLoop at h
      obtain ⟨⟨ret1, f1, session1, out1⟩, hrun, h⟩ := Query.bind_ok.mp h
      cases ret1 with
      | success =>
          simp only [Query.pure_ok, Prod.mk.injEq] at h
          obtain ⟨-, -, -, -, rfl⟩ := h
          exact attempt_keeps htab hgpus hrun
      | failure =>
          have hholds : f.Holds s fun _ => True := ⟨htab, trivial, trivial, trivial⟩
          obtain ⟨hturn, hids1, -⟩ := attempt_holds lasting_true hholds hids hrun
          dsimp only at h
          split at h
          case isTrue =>
            have hkeeps := ih (f := f1.scaleUp s) (hturn.built htab) hids1 h
            rw [Keeps, show (f1.scaleUp s).currState = f1.currState from rfl,
              SimState.sizes_of_layout hturn.curr] at hkeeps
            exact Keeps.of_tgt hkeeps (attempt_kept hrun).tgt
          case isFalse =>
            simp only [Query.pure_ok, Prod.mk.injEq] at h
            cases h.1

theorem needUpdate_applyRouting : (f.applyRouting s).needUpdate = false := by
  unfold applyRouting
  split
  case isTrue => rfl
  case isFalse hneed => exact eq_false_of_ne_true hneed

/-- An epoch that makes a decision keeps the GPUs' nodes, or has repartitioned. -/
theorem oracleScheduler_keeps {env : Nat → Environment} {fuel : Nat} {ret : Option Ret}
    (htab : Built s f.satTable) (hgpus : 0 < s.getMaxGPUs)
    (h : f.oracleScheduler s g nGPUs env fuel = .ok (ret, f')) (hneed : f'.needUpdate = true) :
    ∃ decision, f'.nextState = (copyToOutput s decision).2 ∧
      Keeps s g f'.rates.tgt f'.currState decision := by
  have htabRouted : Built s (f.applyRouting s).satTable := by
    unfold applyRouting
    split
    all_goals exact htab
  unfold oracleScheduler at h
  dsimp only at h
  split at h
  case isTrue =>
    simp only [Query.pure_ok, Prod.mk.injEq] at h
    obtain ⟨-, rfl⟩ := h
    have htrue : (f.applyRouting s).needUpdate = true := hneed
    rw [needUpdate_applyRouting] at htrue
    cases htrue
  case isFalse =>
    obtain ⟨⟨ret1, turns, f1, session, output⟩, hloop, h⟩ := Query.bind_ok.mp h
    have hids := known_setupTasks (g := g) true (env 0).arivRate (f.applyRouting s).rates
    have hholds : Holds s (fun _ => True) { f.applyRouting s with
        rates := (setupTasks g true (env 0).arivRate (f.applyRouting s).rates).1
        currState := (copyToOutput s (f.applyRouting s).currState).1 } :=
      ⟨htabRouted, trivial, trivial, trivial⟩
    obtain ⟨hturn, -⟩ := scaleLoop_holds lasting_true hholds hids hloop
    cases ret1 with
    | failure =>
        simp only [Query.pure_ok, Prod.mk.injEq] at h
        obtain ⟨-, rfl⟩ := h
        have hkept : f1.needUpdate = (f.applyRouting s).needUpdate :=
          (scaleLoop_kept attempt_kept hloop).need
        have htrue : f1.needUpdate = true := hneed
        rw [hkept, needUpdate_applyRouting] at htrue
        cases htrue
    | success =>
        have hkeeps := scaleLoop_keeps hholds.built hgpus hids hloop
        simp only [Query.pure_ok, Prod.mk.injEq] at h
        obtain ⟨-, rfl⟩ := h
        have hreduce : (f1.checkandReduceGPU s output).currState = f1.currState ∧
            (f1.checkandReduceGPU s output).rates = f1.rates := by
          unfold checkandReduceGPU
          dsimp only
          split
          all_goals exact ⟨rfl, rfl⟩
        refine ⟨output, rfl, ?_⟩
        show Keeps s g (f1.checkandReduceGPU s output).rates.tgt
          (f1.checkandReduceGPU s output).currState output
        have htgt := (scaleLoop_kept attempt_kept hloop).tgt
        rw [hreduce.1, hreduce.2, Keeps, SimState.sizes_of_layout hturn.curr]
        exact Keeps.of_tgt hkeeps fun name => (htgt name).symm

end Frontend

/-! ## Proxies -/

namespace Devices.Beacons

open Frontend Routing Unload

variable {s : Scheduler} {sys : SysMonitor} {g : Service} {nodes : List BackendNode}
  {sim sim' : SimState} {st st' st1 : Running} {p : ProxyInfo}

/-- The decision has a node for the proxy. -/
def UsesProxy (sys : SysMonitor) (sim : SimState) (p : ProxyInfo) : Prop :=
  ∃ n ∈ sim.nodes, Has sys p n = true

/-- Which proxies are used can be told from the sizes. -/
theorem usesProxy_iff (h : AllGPUs ShapedGPU sim) : UsesProxy sys sim p ↔
    ∃ (i : Nat) (e : Nat × DeviceType × List (Int × Int)), sim.sizes[i]? = some e ∧
      ∃ k ∈ e.2.2, getProxyInfo sys i k.1 k.2 = some p := by
  constructor
  · rintro ⟨n, hn, hp⟩
    obtain ⟨g, hg, hmem⟩ := List.mem_flatMap.mp hn
    obtain ⟨i, hi⟩ := List.mem_iff_getElem?.mp hg
    refine ⟨i, _, by rw [SimState.sizes_getElem?, hi]; rfl, n.key, List.mem_map_of_mem hmem, ?_⟩
    rw [← (h i g hi).id_eq n hmem]
    exact of_decide_eq_true hp
  · rintro ⟨i, e, he, k, hk, hp⟩
    rw [SimState.sizes_getElem?] at he
    obtain ⟨g, hi, rfl⟩ := Option.map_eq_some_iff.mp he
    obtain ⟨n, hmem, rfl⟩ := List.mem_map.mp hk
    refine ⟨n, List.mem_flatMap.mpr ⟨g, List.mem_of_getElem? hi, hmem⟩, decide_eq_true ?_⟩
    rw [(h i g hi).id_eq n hmem]
    exact hp

theorem usesProxy_congr (hsizes : sim'.sizes = sim.sizes) (h' : AllGPUs ShapedGPU sim')
    (h : AllGPUs ShapedGPU sim) : UsesProxy sys sim' p ↔ UsesProxy sys sim p := by
  rw [usesProxy_iff h', usesProxy_iff h, hsizes]

theorem shaped_of_laid (h : Laid s sim) : AllGPUs ShapedGPU sim :=
  fun i g hg => (h.gpus i g hg).shaped

/-- **Proxies change only with a full repartition.** After any steps of the
frontend, an epoch that makes a decision leaves one that uses exactly the
proxies of the current one, or one that `fullRepartition` has made for the
targets of the epoch. -/
theorem proxies_kept {rates : Rates} {table : SatTable} {arivRate : String → ℚ}
    {es : List Event} {env : Nat → Environment} {fuel : Nat} (hserves : Serves nodes s)
    (havail : AvailParts s.availParts) (hprofile : ProfileRange s) (htab : Built s table)
    (hgpus : 0 < s.getMaxGPUs)
    (hboot : boot s (configureProxys nodes) g rates table arivRate = .ok st)
    (hrun : Machine.run (step s (configureProxys nodes) g) es st = some st1)
    (hstep : step s (configureProxys nodes) g (.epoch env fuel) st1 = some st')
    (hneed : st'.front.needUpdate = true) :
    (∀ p, UsesProxy (configureProxys nodes) st'.front.nextState p ↔
      UsesProxy (configureProxys nodes) st'.front.currState p) ∨
    ∃ decision, Repartitioned s g st'.front.rates.tgt decision ∧
      st'.front.nextState = (copyToOutput s decision).2 := by
  have hinv := inv_of_run hserves (laid_lasting havail hprofile) htab hboot hrun
  have hinv' := Inv.step hserves (laid_lasting havail hprofile) hinv hstep
  have hepoch := epoch_of_step hstep
  simp only [epoch, Query.bind_ok, Query.pure_ok] at hepoch
  obtain ⟨routes, -, ⟨ret, front⟩, horacle, rfl⟩ := hepoch
  obtain ⟨decision, hnext, hsizes | hfull⟩ :=
    oracleScheduler_keeps hinv.holds.built hgpus horacle hneed
  · refine Or.inl fun p => usesProxy_congr ?_ (shaped_of_laid hinv'.holds.next)
      (shaped_of_laid hinv'.holds.curr)
    rw [hnext, SimState.sizes_copy]
    exact hsizes
  · exact Or.inr ⟨decision, hfull, hnext⟩

/-- The rate doubles, and the only GPU stays whole: the next decision uses the
proxies of the current one. -/
theorem proxies_kept_whole :
    ∃ st st', boot oneGPU (configureProxys oneNode) lenetService lenetRates (fun _ => none)
        (fun _ => 0) = .ok st ∧
      step oneGPU (configureProxys oneNode) lenetService (.epoch traffic 1) st = some st' ∧
      st'.front.needUpdate = true ∧
      st'.front.nextState.nodes.map (·.resourcePntg) = [100] ∧
      ∀ p, UsesProxy (configureProxys oneNode) st'.front.nextState p ↔
        UsesProxy (configureProxys oneNode) st'.front.currState p := by
  obtain ⟨st, st', hboot, hrun, htest⟩ := oneGPU_runs [.epoch traffic 1]
    (fun st => st.front.needUpdate &&
      decide (st.front.nextState.nodes.map (·.resourcePntg) = [100] ∧
        st.front.nextState.sizes = st.front.currState.sizes)) (by decide +kernel)
  obtain ⟨hneed, htest⟩ := (Bool.and_eq_true _ _).mp htest
  obtain ⟨hwhole, hsizes⟩ := of_decide_eq_true htest
  have hstep := Machine.run_singleton.symm.trans hrun
  have hstart : Machine.run (step oneGPU (configureProxys oneNode) lenetService) [] st = some st := rfl
  refine ⟨st, st', hboot, hstep, hneed, hwhole, ?_⟩
  rcases proxies_kept oneGPU_serves oneGPU_avail (profileRange_plain _ _ _) .empty (by decide) hboot
    hstart hstep hneed with hsame | -
  · exact hsame
  · have hinv := inv_of_run oneGPU_serves
      (laid_lasting oneGPU_avail (profileRange_plain _ _ _)) .empty hboot hrun
    exact fun p => usesProxy_congr hsizes (shaped_of_laid hinv.holds.next)
      (shaped_of_laid hinv.holds.curr)

end Devices.Beacons

end Glet
