import Glet.Epoch
import Glet.Hysteresis
import Glet.Simulation
import Glet.Smoothing

/-!
# Steady traffic

A thread counts the requests of each model for half a second at a time and
smooths the counts to an arrival rate; epochs compare these rates with the
targets. When the counts of a model stay the same, its rate gets near the rate
of its requests. That is an even number, which is not near 125 where the
headroom changes; so all goals from then on are within the band of any of
them, and a target that is set once more is not set again. With steady traffic
the scheduler comes to rest (`steady_traffic_settles`).
-/

namespace Glet

open Smoothing (smooth)

/-! ## The monitor thread -/

/-- `EWMA`; `_interval_ms` is the length of the interval of a count. -/
structure EWMA where
  alpha : ℚ
  rate : ℚ
  intervalMs : Int

namespace EWMA

def new (monitorIntervalMs queryIntervalMs : Int) : EWMA :=
  let n := max ((queryIntervalMs : ℚ) / monitorIntervalMs) 1
  { alpha := 2 / (n + 1), rate := 0, intervalMs := monitorIntervalMs }

def initRate (e : EWMA) (rate : ℚ) : EWMA := { e with rate }

def updateRate (e : EWMA) (cnt : Nat) : EWMA :=
  let rate := (cnt : ℚ) * 1000 / e.intervalMs
  { e with rate := e.alpha * rate + (1 - e.alpha) * e.rate }

/-- The assertion of the constructor, for all intervals. -/
theorem alpha_new (monitorIntervalMs queryIntervalMs : Int) :
    0 < (new monitorIntervalMs queryIntervalMs).alpha ∧
      (new monitorIntervalMs queryIntervalMs).alpha ≤ 1 := by
  have hone : (1 : ℚ) ≤ max ((queryIntervalMs : ℚ) / monitorIntervalMs) 1 := le_max_right _ _
  have hpos : (0 : ℚ) < max ((queryIntervalMs : ℚ) / monitorIntervalMs) 1 + 1 := by linarith
  refine ⟨div_pos two_pos hpos, (div_le_one hpos).mpr ?_⟩
  linarith

end EWMA

/-- RATE_INTERVAL, in ms. -/
def rateInterval : Int := 500

/-- BEACON_INTERVAL as it stands in epoch mode, in ms. -/
def beaconInterval : Int := 20000

/-- The global scheduler, `mPerTaskEWMARate`, and the results of the epochs. -/
structure Monitored where
  frontend : Frontend
  ewma : String → EWMA
  results : List (Option Ret)

namespace Monitored

inductive Act where
  /-- A turn of the loop of `initMonitor` for one model. -/
  | count (name : String) (cnt : Nat)
  /-- An epoch, with what is read besides the arrival rates. -/
  | epoch (env : Nat → Environment) (fuel : Nat)

/-- The start of `initMonitor`: `getTaskTgtRate` makes entries. -/
def start (g : Service) (f : Frontend) : Monitored where
  frontend := { f with rates := g.netNames.foldl Rates.lookup f.rates }
  ewma := fun name => (EWMA.new rateInterval beaconInterval).initRate (f.rates.tgt name)
  results := []

/-- `getTaskArivRate`. -/
def arivRate (st : Monitored) (name : String) : ℚ := (st.ewma name).rate

/-- What an epoch reads. -/
def reads (st : Monitored) (env : Nat → Environment) : Nat → Environment
  | 0 => { env 0 with arivRate := st.arivRate }
  | k + 1 => env (k + 1)

def step (s : Scheduler) (g : Service) (nGPUs : Int) : Act → Monitored → Option Monitored
  | .count name cnt, st =>
      if name ∈ g.netNames then
        some { st with ewma := Function.update st.ewma name ((st.ewma name).updateRate cnt) }
      else none
  | .epoch env fuel, st =>
      (st.frontend.oracleScheduler s g nGPUs (st.reads env) fuel).toOption.map fun p =>
        { st with frontend := p.2, results := st.results ++ [p.1] }

theorem epoch_cases {s : Scheduler} {g : Service} {nGPUs : Int} {env : Nat → Environment}
    {fuel : Nat} {st st' : Monitored} (h : step s g nGPUs (.epoch env fuel) st = some st') :
    ∃ ret f', st.frontend.oracleScheduler s g nGPUs (st.reads env) fuel = .ok (ret, f') ∧
      st' = { st with frontend := f', results := st.results ++ [ret] } := by
  obtain ⟨⟨ret, f'⟩, hrun, rfl⟩ := Option.map_eq_some_iff.mp h
  refine ⟨ret, f', ?_, rfl⟩
  cases hres : st.frontend.oracleScheduler s g nGPUs (st.reads env) fuel with
  | ok p =>
      rw [hres] at hrun
      exact congrArg Except.ok (Option.some.inj hrun)
  | error e =>
      rw [hres] at hrun
      cases hrun

end Monitored

/-! ## The maps after an epoch -/

namespace Frontend

variable {s : Scheduler} {nGPUs : Int} {f f' : Frontend} {g : Service} {D : Type}

theorem setupAllFrom_hist {arivRate : String → ℚ} {names : List String} {r : Rates} :
    (Rates.setupAllFrom arivRate names r).1.perTaskRateHist = r.perTaskRateHist := by
  induction names generalizing r with
  | nil => rfl
  | cons name names ih =>
      unfold Rates.setupAllFrom
      split
      case isTrue => exact ih
      case isFalse =>
        dsimp only
        split
        all_goals exact ih

theorem fullRepartition_hist {env : Environment} {input output out : SimState} {ret : Ret}
    (h : f.fullRepartition s g env input output = .ok (ret, out, f')) :
    f'.rates.perTaskRateHist = f.rates.perTaskRateHist := by
  simp only [fullRepartition, Query.bind_ok, Query.pure_ok, Prod.mk.injEq] at h
  obtain ⟨sim, -, o, -, -, -, rfl⟩ := h
  exact setupAllFrom_hist

theorem doScheduling_hist {env : Environment} {session session' : List Task}
    {prevOutput newOutput out : SimState} {ret : Ret}
    (h : f.doScheduling s g env session prevOutput newOutput = .ok (ret, session', out, f')) :
    f'.rates.perTaskRateHist = f.rates.perTaskRateHist := by
  unfold doScheduling at h
  dsimp only at h
  have hflush : (if s.getMaxGPUs ≠ prevOutput.vGPUList.length then
      (({ f with rates := { f.rates with sysFlush := true } } : Frontend),
        ({ prevOutput with vGPUList := [] } : SimState))
    else (f, prevOutput)).1.rates.perTaskRateHist = f.rates.perTaskRateHist := by
    split
    all_goals rfl
  generalize (if s.getMaxGPUs ≠ prevOutput.vGPUList.length then
      (({ f with rates := { f.rates with sysFlush := true } } : Frontend),
        ({ prevOutput with vGPUList := [] } : SimState))
    else (f, prevOutput)) = start at h hflush
  obtain ⟨f1, prev⟩ := start
  dsimp only at h hflush
  obtain ⟨sim, -, h⟩ := Query.bind_ok.mp h
  split at h
  case isTrue =>
    obtain ⟨⟨ret1, out1, f2⟩, hfull, h⟩ := Query.bind_ok.mp h
    simp only [Query.pure_ok, Prod.mk.injEq] at h
    obtain ⟨-, -, -, rfl⟩ := h
    have hkept := fullRepartition_hist hfull
    rw [hkept]
    exact hflush
  case isFalse =>
    obtain ⟨o, -, h⟩ := Query.bind_ok.mp h
    cases hret : o.ret with
    | success =>
        rw [hret] at h
        simp only [Query.pure_ok, Prod.mk.injEq] at h
        obtain ⟨-, -, -, rfl⟩ := h
        exact hflush
    | failure =>
        rw [hret] at h
        obtain ⟨⟨ret1, out1, f2⟩, hfull, h⟩ := Query.bind_ok.mp h
        simp only [Query.pure_ok, Prod.mk.injEq] at h
        obtain ⟨-, -, -, rfl⟩ := h
        have hkept := fullRepartition_hist hfull
        rw [hkept]
        exact hflush

theorem attempt_hist {env : Nat → Environment} {turn : Nat} {data data' : List Task × SimState}
    {ret : Ret} (h : attempt s g env turn (f, data) = .ok (ret, f', data')) :
    f'.rates.perTaskRateHist = f.rates.perTaskRateHist := by
  unfold attempt at h
  dsimp only at h
  obtain ⟨⟨ret1, session1, out1, f1⟩, hdo, h⟩ := Query.bind_ok.mp h
  simp only [Query.pure_ok, Prod.mk.injEq] at h
  obtain ⟨-, rfl, -⟩ := h
  have hkept := doScheduling_hist hdo
  exact hkept

theorem scaleLoop_hist {env : Nat → Environment} {fuel turn turns : Nat}
    {data data' : List Task × SimState} {ret : Ret}
    (h : scaleLoop s nGPUs (attempt s g env) fuel turn (f, data) = .ok (ret, turns, f', data')) :
    f'.rates.perTaskRateHist = f.rates.perTaskRateHist := by
  induction fuel generalizing turn f data with
  | zero => cases h
  | succ fuel ih =>
      unfold scaleLoop at h
      obtain ⟨⟨ret1, f1, data1⟩, hrun, h⟩ := Query.bind_ok.mp h
      have hfirst := attempt_hist hrun
      cases ret1 with
      | success =>
          simp only [Query.pure_ok, Prod.mk.injEq] at h
          obtain ⟨-, -, rfl, -⟩ := h
          exact hfirst
      | failure =>
          dsimp only at h
          split at h
          case isTrue => exact (ih h).trans hfirst
          case isFalse =>
            simp only [Query.pure_ok, Prod.mk.injEq] at h
            obtain ⟨-, -, rfl, -⟩ := h
            exact hfirst

/-- What an epoch leaves of the maps: those of `setupTasks`, or after a failure
the targets it began with. -/
inductive EpochEnd (f : Frontend) (r : Rates) (tasks : List Task) (f' : Frontend) : Option Ret → Prop
  | idle (hnone : tasks = []) (hrates : f'.rates = r) : EpochEnd f r tasks f' none
  | success (hsome : tasks ≠ []) (htgt : ∀ name, f'.rates.tgt name = r.tgt name)
      (hhist : f'.rates.perTaskRateHist = r.perTaskRateHist) : EpochEnd f r tasks f' (some .success)
  | failure (htgt : ∀ name, f'.rates.tgt name = f.rates.tgt name)
      (hhist : f'.rates.perTaskRateHist = removeMaxRates r.perTaskRateHist) :
      EpochEnd f r tasks f' (some .failure)

theorem oracleScheduler_outcome {env : Nat → Environment} {fuel : Nat} {ret : Option Ret}
    (h : f.oracleScheduler s g nGPUs env fuel = .ok (ret, f')) :
    EpochEnd f (setupTasks g true (env 0).arivRate f.rates).1
      (setupTasks g true (env 0).arivRate f.rates).2 f' ret := by
  have hroute : (f.applyRouting s).rates = f.rates := by
    unfold applyRouting
    split
    all_goals rfl
  unfold oracleScheduler at h
  dsimp only at h
  rw [hroute] at h
  split at h
  case isTrue hnone =>
    simp only [Query.pure_ok, Prod.mk.injEq] at h
    obtain ⟨rfl, rfl⟩ := h
    exact .idle hnone rfl
  case isFalse hsome =>
    obtain ⟨⟨ret, turns, f1, session, output⟩, hloop, h⟩ := Query.bind_ok.mp h
    have hkept := scaleLoop_kept attempt_kept hloop
    have hhist := scaleLoop_hist hloop
    cases ret with
    | success =>
        simp only [Query.pure_ok, Prod.mk.injEq] at h
        obtain ⟨rfl, rfl⟩ := h
        have hreduce : (f1.checkandReduceGPU s output).rates = f1.rates := by
          unfold checkandReduceGPU
          dsimp only
          split
          all_goals rfl
        refine .success hsome (fun name => ?_) ?_
        · show (f1.checkandReduceGPU s output).rates.tgt name = _
          rw [hreduce]
          exact hkept.tgt name
        · show (f1.checkandReduceGPU s output).rates.perTaskRateHist = _
          rw [hreduce]
          exact hhist
    | failure =>
        simp only [Query.pure_ok, Prod.mk.injEq] at h
        obtain ⟨rfl, rfl⟩ := h
        refine .failure (fun name => tgt_recover (fun name hnone => ?_) name) ?_
        · rw [hkept.tgt name]
          refine Rates.setupTasksFrom_zero ?_
          rw [Rates.tgt, hnone]
          rfl
        · show removeMaxRates f1.rates.perTaskRateHist = _
          rw [hhist]

end Frontend

/-! ## Histories and targets -/

namespace Rates

variable {r : Rates} {currRate : ℚ} {name other : String} {arivRate : String → ℚ}
  {names : List String}

theorem length_record (h : (r.perTaskRateHist other).length ≤ 1) :
    ((r.updateAndReturnMaxHistRate name currRate).2.perTaskRateHist other).length ≤ 1 := by
  unfold updateAndReturnMaxHistRate
  dsimp only
  by_cases hne : other = name
  · subst hne
    rw [Function.update_self]
    split
    case isTrue =>
      rw [List.length_dropLast, List.length_cons]
      omega
    case isFalse hshort =>
      have hlen : ((currRate :: r.perTaskRateHist other).length : ℚ) ≤ histLen := not_lt.mp hshort
      have hlt : ((currRate :: r.perTaskRateHist other).length : ℚ) < 2 :=
        lt_of_le_of_lt hlen (by norm_num [histLen, epochInterval])
      have := Nat.cast_lt.mp (show ((_ : ℕ) : ℚ) < ((2 : ℕ) : ℚ) from hlt)
      omega
  · rw [Function.update_of_ne hne]
    exact h

/-- A turn leaves the histories or records the rate. -/
theorem setupTask_hist : (r.setupTask true currRate name).1.perTaskRateHist = r.perTaskRateHist ∨
    (r.setupTask true currRate name).1.perTaskRateHist =
      (r.updateAndReturnMaxHistRate name currRate).2.perTaskRateHist := by
  unfold setupTask
  split
  · exact Or.inl rfl
  · refine Or.inr ?_
    generalize r.updateAndReturnMaxHistRate name currRate = updated
    obtain ⟨orgRate, r1⟩ := updated
    dsimp only
    split
    · rfl
    · split
      · rfl
      · split
        · rfl
        · split
          all_goals dsimp only
          all_goals split
          all_goals rfl

/-- Histories have one entry, and targets are not negative. -/
structure Recorded (r : Rates) : Prop where
  hist : ∀ name, (r.perTaskRateHist name).length ≤ 1
  tgt : ∀ name, 0 ≤ r.tgt name

theorem room_nonneg {orgRate : ℚ} (h : 0 ≤ orgRate) : 0 ≤ room orgRate := by
  unfold room
  split
  all_goals linarith

theorem Recorded.setupTask (h : Recorded r) (hrate : 0 ≤ currRate) :
    Recorded (r.setupTask true currRate name).1 := by
  refine ⟨fun other => ?_, fun other => ?_⟩
  · rcases setupTask_hist with heq | heq
    · rw [heq]
      exact h.hist other
    · rw [heq]
      exact length_record (h.hist other)
  · obtain ⟨hother, hname⟩ := setupTask_cases r true currRate name
    by_cases hne : other = name
    · subst hne
      rcases hname with heq | ⟨-, heq⟩ | ⟨-, orgRate, hle, heq⟩
      · rw [heq]
        exact h.tgt other
      · rw [heq]
      · rw [heq]
        exact room_nonneg (hrate.trans hle)
    · rw [hother other hne]
      exact h.tgt other

theorem Recorded.setupTasksFrom (h : Recorded r) (hrate : ∀ name, 0 ≤ arivRate name) :
    Recorded (Rates.setupTasksFrom true arivRate names r).1 := by
  induction names generalizing r with
  | nil => exact h
  | cons name names ih => exact ih (h.setupTask (hrate name))

/-- The goal is the room for the current rate. -/
theorem Recorded.goal_eq (h : Recorded r) : r.goal name currRate = room currRate := by
  have hlen : histLen < 2 := by norm_num [histLen, epochInterval]
  have hone : ¬ histLen < 1 := by norm_num [histLen, epochInterval]
  cases hhist : r.perTaskRateHist name with
  | nil => simp [goal, updateAndReturnMaxHistRate, hhist, hone, maxElement]
  | cons x xs =>
      have hnil : xs = [] := by
        have := h.hist name
        rw [hhist, List.length_cons] at this
        exact List.length_eq_zero_iff.mp (by omega)
      simp [goal, updateAndReturnMaxHistRate, hhist, hnil, hlen, maxElement, one_add_one_eq_two]

/-- A model whose target is 0 is not pushed. -/
theorem setupTask_zero_pushed (h : r.tgt name = 0) : (r.setupTask true currRate name).2 = [] := by
  have hone : ¬ (1 : ℚ) < 0 := by norm_num
  unfold setupTask
  split
  · rfl
  · have htgt : (r.updateAndReturnMaxHistRate name currRate).2.tgt name = 0 := h
    generalize r.updateAndReturnMaxHistRate name currRate = updated at htgt
    obtain ⟨orgRate, r1⟩ := updated
    dsimp only at htgt ⊢
    rw [if_neg (by rw [htgt]; exact fun hand => hone hand.2), tgt_lookup, if_pos htgt]

theorem setupTasksFrom_zero_pushed (h : r.tgt name = 0) :
    (Rates.setupTasksFrom true arivRate names r).2.count name = 0 := by
  induction names generalizing r with
  | nil => rfl
  | cons other names ih =>
      have hturn : (r.setupTask true (arivRate other) other).2.count name = 0 := by
        rcases eq_or_ne name other with rfl | hne
        · rw [setupTask_zero_pushed h]
          rfl
        · exact setupTask_pushed hne
      simp only [setupTasksFrom, List.count_append, hturn, ih (setupTask_zero h)]

/-! ## Near a steady rate -/

/-- A rate near twice a count: counts are of half seconds. -/
def NearRate (c : Nat) (rate : ℚ) : Prop := |rate - 2 * c| ≤ 1 / 60

/-- The goal of any rate near the steady one is in the band of the target. -/
def InBand (c : Nat) (tgt : ℚ) : Prop :=
  tgt = 0 ∨ ∀ rate, NearRate c rate → ¬ (Above tgt (room rate) ∨ Below tgt (room rate))

theorem NearRate.one_le {c : Nat} {rate : ℚ} (h : NearRate c rate) (hc : 1 ≤ c) : 1 ≤ rate := by
  have hc' : (1 : ℚ) ≤ c := by exact_mod_cast hc
  have := (abs_le.mp h).1
  linarith

/-- Twice a count is not near 125. -/
theorem NearRate.room_cases {c : Nat} {rate : ℚ} (h : NearRate c rate) :
    (c ≤ 62 ∧ room rate = rate * (3 / 2)) ∨ (63 ≤ c ∧ room rate = rate * (6 / 5)) := by
  obtain ⟨hlo, hhi⟩ := abs_le.mp h
  rcases Nat.lt_or_ge 62 c with hbig | hsmall
  · have hc : (63 : ℚ) ≤ c := by exact_mod_cast hbig
    exact Or.inr ⟨hbig, if_neg (by linarith)⟩
  · have hc : (c : ℚ) ≤ 62 := by exact_mod_cast hsmall
    exact Or.inl ⟨hsmall, if_pos (by linarith)⟩

/-- A target that is set for a near rate stays. -/
theorem inBand_room {c : Nat} {rate : ℚ} (h : NearRate c rate) (hc : 1 ≤ c) :
    InBand c (room rate) := by
  refine Or.inr fun rate' h' => ?_
  have hc' : (1 : ℚ) ≤ c := by exact_mod_cast hc
  obtain ⟨hlo, hhi⟩ := abs_le.mp h
  obtain ⟨hlo', hhi'⟩ := abs_le.mp h'
  have hclose : room rate' - room rate ≤ 1 / 20 ∧ room rate - room rate' ≤ 1 / 20 ∧
      11 / 5 ≤ room rate := by
    rcases h.room_cases with ⟨hsmall, heq⟩ | ⟨hbig, heq⟩
    · rcases h'.room_cases with ⟨-, heq'⟩ | ⟨hbig', -⟩
      · rw [heq, heq']
        exact ⟨by linarith, by linarith, by linarith⟩
      · omega
    · rcases h'.room_cases with ⟨hsmall', -⟩ | ⟨-, heq'⟩
      · omega
      · have hbig' : (63 : ℚ) ≤ c := by exact_mod_cast hbig
        rw [heq, heq']
        exact ⟨by linarith, by linarith, by linarith⟩
  obtain ⟨hup, hdown, hroom⟩ := hclose
  rintro ((habove | habove) | hbelow)
  · linarith
  · linarith
  · rw [Below] at hbelow
    linarith

/-- With a rate near the steady one, `setupTasks` leaves the target of a model
and does not push it, or settles the target. -/
theorem Recorded.near_cases (h : Recorded r) (hnodup : names.Nodup) (hname : name ∈ names) {c : Nat}
    (hc : 1 ≤ c) (hnear : NearRate c (arivRate name)) :
    ((Rates.setupTasksFrom true arivRate names r).2.count name = 0 ∧
      (Rates.setupTasksFrom true arivRate names r).1.tgt name = r.tgt name) ∨
    (¬ InBand c (r.tgt name) ∧
      InBand c ((Rates.setupTasksFrom true arivRate names r).1.tgt name)) := by
  rcases (h.tgt name).eq_or_lt with hzero | hpos
  · exact Or.inl ⟨setupTasksFrom_zero_pushed hzero.symm,
      (setupTasksFrom_zero hzero.symm).trans hzero⟩
  · have hrun : ¬ (arivRate name < 1 ∧ 1 < r.tgt name) := fun hidle =>
      absurd (hnear.one_le hc) (not_le.mpr hidle.1)
    obtain ⟨hnew, -, hcount⟩ := setupTasksFrom_eq hnodup hname hpos hrun
    rw [h.goal_eq] at hnew hcount
    by_cases hout : Above (r.tgt name) (room (arivRate name)) ∨ Below (r.tgt name) (room (arivRate name))
    · refine Or.inr ⟨?_, ?_⟩
      · rintro (hzero | hin)
        · exact hpos.ne' hzero
        · exact hin _ hnear hout
      · rw [hnew, newTgt, if_pos hout]
        exact inBand_room hnear hc
    · rw [if_neg hout] at hcount
      rw [newTgt, if_neg hout] at hnew
      exact Or.inl ⟨hcount, hnew⟩

end Rates

/-! ## The scheduler comes to rest -/

namespace Monitored

open Rates (Recorded NearRate InBand)
open Scheduler (plain profile)

variable {s : Scheduler} {g : Service} {nGPUs : Int} {f : Frontend} {st st' : Monitored}
  {c : String → Nat}

/-- The counts of a model are always the same. -/
def Act.Steady (c : String → Nat) : Act → Prop
  | .count name cnt => cnt = c name
  | .epoch _ _ => True

/-- A turn of the monitor thread for the model. -/
def Act.counts (name : String) : Act → Bool
  | .count other _ => other == name
  | .epoch _ _ => false

theorem Act.counts_count {name other : String} {cnt : Nat} :
    (Act.count other cnt).counts name = true ↔ other = name := beq_iff_eq

theorem Act.counts_epoch {name : String} {env : Nat → Environment} {fuel : Nat} :
    (Act.epoch env fuel).counts name = false := rfl

/-- The averages are those of `initMonitor`, and no rate is negative. -/
structure Watched (st : Monitored) : Prop where
  rates : Recorded st.frontend.rates
  alpha : ∀ name, (st.ewma name).alpha = 2 / 41
  interval : ∀ name, (st.ewma name).intervalMs = 500
  rate : ∀ name, 0 ≤ st.arivRate name

theorem lookups_tgt {names : List String} {r : Rates} (other : String) :
    (names.foldl Rates.lookup r).tgt other = r.tgt other := by
  induction names generalizing r with
  | nil => rfl
  | cons name names ih => exact ih.trans (Rates.tgt_lookup r name other)

theorem lookups_hist {names : List String} {r : Rates} :
    (names.foldl Rates.lookup r).perTaskRateHist = r.perTaskRateHist := by
  induction names generalizing r with
  | nil => rfl
  | cons name names ih => exact ih

theorem watched_start (h : Recorded f.rates) : Watched (start g f) := by
  refine ⟨⟨fun name => ?_, fun name => ?_⟩, fun _ => ?_, fun _ => rfl, h.tgt⟩
  · show ((g.netNames.foldl Rates.lookup f.rates).perTaskRateHist name).length ≤ 1
    rw [lookups_hist]
    exact h.hist name
  · show 0 ≤ (g.netNames.foldl Rates.lookup f.rates).tgt name
    rw [lookups_tgt]
    exact h.tgt name
  · show (2 : ℚ) / (max (((20000 : Int) : ℚ) / ((500 : Int) : ℚ)) 1 + 1) = 2 / 41
    norm_num

/-- What one turn of the monitor thread does. -/
theorem count_cases {name : String} {cnt : Nat} (h : step s g nGPUs (.count name cnt) st = some st') :
    st' = { st with ewma := Function.update st.ewma name ((st.ewma name).updateRate cnt) } := by
  simp only [step] at h
  split at h
  · exact (Option.some.inj h).symm
  · cases h

theorem ewma_count {name : String} {cnt : Nat}
    (hstep : step s g nGPUs (.count name cnt) st = some st') (other : String) :
    (st'.ewma other).alpha = (st.ewma other).alpha ∧
      (st'.ewma other).intervalMs = (st.ewma other).intervalMs := by
  obtain rfl := count_cases hstep
  dsimp only
  rcases eq_or_ne other name with rfl | hne
  · rw [Function.update_self]
    exact ⟨rfl, rfl⟩
  · rw [Function.update_of_ne hne]
    exact ⟨rfl, rfl⟩

theorem Watched.arivRate_count (h : Watched st) {name : String} {cnt : Nat}
    (hstep : step s g nGPUs (.count name cnt) st = some st') (other : String) :
    st'.arivRate other = if other = name then smooth (2 / 41) (2 * (cnt : ℚ)) (st.arivRate other)
      else st.arivRate other := by
  have hrate : (cnt : ℚ) * 1000 / ((500 : Int) : ℚ) = 2 * cnt := by
    push_cast
    ring
  obtain rfl := count_cases hstep
  unfold arivRate
  dsimp only
  rcases eq_or_ne other name with rfl | hne
  · rw [Function.update_self, if_pos rfl]
    simp only [EWMA.updateRate, h.alpha, h.interval, hrate, smooth]
  · rw [Function.update_of_ne hne, if_neg hne]

theorem Watched.recorded_epoch (h : Watched st) {ret : Option Ret} {f' : Frontend}
    (hout : Frontend.EpochEnd st.frontend (setupTasks g true st.arivRate st.frontend.rates).1
      (setupTasks g true st.arivRate st.frontend.rates).2 f' ret) : Recorded f'.rates := by
  have hset : Recorded (setupTasks g true st.arivRate st.frontend.rates).1 :=
    h.rates.setupTasksFrom h.rate
  cases hout with
  | idle hnone hrates =>
      rw [hrates]
      exact hset
  | success hsome htgt hhist =>
      exact ⟨fun name => hhist ▸ hset.hist name, fun name => htgt name ▸ hset.tgt name⟩
  | failure htgt hhist =>
      refine ⟨fun name => ?_, fun name => htgt name ▸ h.rates.tgt name⟩
      rw [hhist, removeMaxRates, if_pos (hset.hist name)]
      exact hset.hist name

theorem Watched.step {act : Act} (h : Watched st) (hstep : Monitored.step s g nGPUs act st = some st') :
    Watched st' := by
  cases act with
  | count name cnt =>
      refine ⟨?_, fun other => ?_, fun other => ?_, fun other => ?_⟩
      · obtain rfl := count_cases hstep
        exact h.rates
      · rw [(ewma_count hstep other).1]
        exact h.alpha other
      · rw [(ewma_count hstep other).2]
        exact h.interval other
      · rw [h.arivRate_count hstep]
        split
        case isTrue =>
          exact Smoothing.smooth_nonneg (by norm_num) (by norm_num) (by positivity) (h.rate other)
        case isFalse => exact h.rate other
  | epoch env fuel =>
      obtain ⟨ret, f', hrun, rfl⟩ := epoch_cases hstep
      exact ⟨h.recorded_epoch (Frontend.oracleScheduler_outcome hrun), h.alpha, h.interval, h.rate⟩

/-! ## Counting the epochs -/

open Classical in
/-- The models whose targets may still be set. -/
noncomputable def unsettled (g : Service) (c : String → Nat) (r : Rates) : Nat :=
  g.netNames.countP fun name => decide (¬ InBand (c name) (r.tgt name))

theorem countP_add_one_le {α : Type} {p q : α → Bool} {l : List α} {x : α}
    (h : ∀ y ∈ l, q y = true → p y = true) (hx : x ∈ l) (hp : p x = true) (hq : q x = false) :
    l.countP q + 1 ≤ l.countP p := by
  induction l with
  | nil => cases hx
  | cons y l ih =>
      have hrest : ∀ z ∈ l, q z = true → p z = true := fun z hz => h z (List.mem_cons_of_mem y hz)
      have hle := List.countP_mono_left hrest
      rw [List.countP_cons, List.countP_cons]
      rcases List.mem_cons.mp hx with rfl | hmem
      · rw [hp, hq]
        simpa using hle
      · have hlt := ih hrest hmem
        by_cases hqy : q y = true
        · rw [hqy, h y List.mem_cons_self hqy]
          omega
        · rw [if_neg hqy]
          split <;> omega

/-- The names that are pushed are net names. -/
theorem exists_pushed {arivRate : String → ℚ} {names : List String} {r : Rates}
    (h : (Rates.setupTasksFrom true arivRate names r).2 ≠ []) :
    ∃ name ∈ names, (Rates.setupTasksFrom true arivRate names r).2.count name ≠ 0 := by
  obtain ⟨name, hmem⟩ := List.exists_mem_of_ne_nil _ h
  have hcount := (List.count_pos_iff.mpr hmem).ne'
  refine ⟨name, ?_, hcount⟩
  by_contra hnot
  exact hcount (Rates.setupTasksFrom_other hnot).2

/-- An epoch near the steady rates settles a target if it makes a decision, and
unsettles none. -/
theorem unsettled_epoch (h : Watched st) (hnodup : g.netNames.Nodup)
    (hc : ∀ name ∈ g.netNames, 1 ≤ c name)
    (hnear : ∀ name ∈ g.netNames, NearRate (c name) (st.arivRate name)) {ret : Option Ret}
    {f' : Frontend} (hout : Frontend.EpochEnd st.frontend
      (setupTasks g true st.arivRate st.frontend.rates).1
      (setupTasks g true st.arivRate st.frontend.rates).2 f' ret) :
    unsettled g c f'.rates + [ret].count (some .success) ≤ unsettled g c st.frontend.rates := by
  classical
  have hcases := fun name (hname : name ∈ g.netNames) =>
    h.rates.near_cases hnodup hname (hc name hname) (hnear name hname)
  have hstays : ∀ name ∈ g.netNames, ¬ InBand (c name)
      ((Rates.setupTasksFrom true st.arivRate g.netNames st.frontend.rates).1.tgt name) →
      ¬ InBand (c name) (st.frontend.rates.tgt name) := by
    intro name hname hun
    rcases hcases name hname with ⟨-, heq⟩ | ⟨-, hset⟩
    · rwa [heq] at hun
    · exact absurd hset hun
  cases hout with
  | idle hnone hrates =>
      rw [hrates]
      refine List.countP_mono_left fun name hname hun => ?_
      exact decide_eq_true (hstays name hname (of_decide_eq_true hun))
  | failure htgt hhist =>
      refine List.countP_mono_left fun name _ hun => ?_
      rwa [htgt name] at hun
  | success hsome htgt hhist =>
      have hpushed : (Rates.setupTasksFrom true st.arivRate g.netNames st.frontend.rates).2 ≠ [] :=
        fun hnil => hsome (by simp [setupTasks, hnil])
      obtain ⟨name, hname, hcount⟩ := exists_pushed hpushed
      rcases hcases name hname with ⟨hzero, -⟩ | ⟨hun, hset⟩
      · exact absurd hzero hcount
      · refine countP_add_one_le (fun other hother hun => ?_) hname (decide_eq_true hun) ?_
        · rw [htgt other] at hun
          exact decide_eq_true (hstays other hother (of_decide_eq_true hun))
        · rw [htgt name]
          exact decide_eq_false (not_not.mpr hset)

/-- Near the steady rates, with a bound on the decisions that were made and can
still be made. -/
structure Resting (g : Service) (c : String → Nat) (bound : Nat) (st : Monitored) : Prop where
  watched : Watched st
  near : ∀ name ∈ g.netNames, NearRate (c name) (st.arivRate name)
  decisions : st.results.count (some .success) + unsettled g c st.frontend.rates ≤ bound

theorem Resting.step {act : Act} {bound : Nat} (hnodup : g.netNames.Nodup)
    (hc : ∀ name ∈ g.netNames, 1 ≤ c name) (h : Resting g c bound st) (hsteady : act.Steady c)
    (hstep : Monitored.step s g nGPUs act st = some st') : Resting g c bound st' := by
  refine ⟨h.watched.step hstep, ?_, ?_⟩
  all_goals cases act with
  | count name cnt => ?_
  | epoch env fuel => ?_
  · obtain rfl : cnt = c name := hsteady
    intro other hother
    rw [h.watched.arivRate_count hstep]
    split
    case isTrue heq =>
      subst heq
      exact Smoothing.near_smooth (by norm_num) (by norm_num) (h.near other hother)
    case isFalse => exact h.near other hother
  · obtain ⟨ret, f', hrun, rfl⟩ := epoch_cases hstep
    exact h.near
  · obtain rfl := count_cases hstep
    exact h.decisions
  · obtain ⟨ret, f', hrun, rfl⟩ := epoch_cases hstep
    have hless := unsettled_epoch h.watched hnodup hc h.near (Frontend.oracleScheduler_outcome hrun)
    have hold := h.decisions
    dsimp only
    rw [List.count_append]
    omega

/-! ## Warming up -/

theorem arivRate_epoch {env : Nat → Environment} {fuel : Nat}
    (hstep : step s g nGPUs (.epoch env fuel) st = some st') (name : String) :
    st'.arivRate name = st.arivRate name := by
  obtain ⟨ret, f', -, rfl⟩ := epoch_cases hstep
  rfl

/-- The average of a model after a run is smoothed once for each of its turns. -/
theorem arivRate_run {acts : List Act} (h : Watched st) (hsteady : ∀ act ∈ acts, act.Steady c)
    (hrun : Machine.run (step s g nGPUs) acts st = some st') (name : String) :
    st'.arivRate name =
      (smooth (2 / 41) (2 * (c name : ℚ)))^[acts.countP (Act.counts name)] (st.arivRate name) := by
  induction acts generalizing st with
  | nil =>
      obtain rfl := Option.some.inj hrun
      rfl
  | cons act acts ih =>
      obtain ⟨st1, hstep, hrest⟩ := Machine.run_cons_eq_some.mp hrun
      rw [ih (h.step hstep) (fun b hb => hsteady b (List.mem_cons_of_mem act hb)) hrest,
        List.countP_cons]
      have hnow := hsteady act List.mem_cons_self
      cases act with
      | count other cnt =>
          obtain rfl : cnt = c other := hnow
          rw [h.arivRate_count hstep]
          rcases eq_or_ne name other with rfl | hne
          · rw [if_pos rfl, if_pos (Act.counts_count.mpr rfl), Function.iterate_succ_apply]
          · rw [if_neg hne, if_neg fun heq => hne (Act.counts_count.mp heq).symm, Nat.add_zero]
      | epoch env fuel =>
          rw [arivRate_epoch hstep, Act.counts_epoch, if_neg Bool.false_ne_true, Nat.add_zero]

/-- So many turns for each model are enough. -/
theorem exists_warm (c : String → Nat) (rate : String → ℚ) (names : List String) :
    ∃ k, ∀ name ∈ names, ∀ n ≥ k,
      NearRate (c name) ((smooth (2 / 41) (2 * (c name : ℚ)))^[n] (rate name)) := by
  induction names with
  | nil => exact ⟨0, fun name hname => absurd hname List.not_mem_nil⟩
  | cons name names ih =>
      obtain ⟨k, hk⟩ := ih
      obtain ⟨k', hk'⟩ := Smoothing.eventually_near (α := (2 / 41 : ℚ)) (by norm_num)
        (by norm_num) (2 * (c name : ℚ)) (rate name) (ε := 1 / 60) (by norm_num)
      refine ⟨max k k', fun other hother n hn => ?_⟩
      rcases List.mem_cons.mp hother with rfl | hmem
      · exact hk' n ((le_max_right k k').trans hn)
      · exact hk other hmem n ((le_max_left k k').trans hn)

theorem Watched.run {acts : List Act} (h : Watched st)
    (hrun : Machine.run (Monitored.step s g nGPUs) acts st = some st') : Watched st' :=
  Machine.run_invariant (fun _ _ _ hw hstep => Watched.step hw hstep) hrun h

/-- From any state that is reached, with counts that stay the same from then on:
once each model has been counted often enough, the scheduler changes its
decision at most once for each of them. -/
theorem steady_traffic_settles {before : List Act} (hf : Recorded f.rates)
    (hnodup : g.netNames.Nodup)
    (hbefore : Machine.run (Monitored.step s g nGPUs) before (start g f) = some st)
    (hc : ∀ name ∈ g.netNames, 1 ≤ c name) :
    ∃ k, ∀ warm acts st1 st2, (∀ act ∈ warm ++ acts, act.Steady c) →
      (∀ name ∈ g.netNames, k ≤ warm.countP (Act.counts name)) →
      Machine.run (Monitored.step s g nGPUs) warm st = some st1 →
      Machine.run (Monitored.step s g nGPUs) acts st1 = some st2 →
      st2.results.count (some .success) ≤ st1.results.count (some .success) + g.netNames.length := by
  have hwatched : Watched st := (watched_start hf).run hbefore
  obtain ⟨k, hk⟩ := exists_warm c st.arivRate g.netNames
  refine ⟨k, fun warm acts st1 st2 hsteady hwarm hrun hrest => ?_⟩
  have hsteadyWarm : ∀ act ∈ warm, act.Steady c := fun act hact =>
    hsteady act (List.mem_append_left acts hact)
  have hsteadyActs : ∀ act ∈ acts, act.Steady c := fun act hact =>
    hsteady act (List.mem_append_right warm hact)
  have hnear : ∀ name ∈ g.netNames, NearRate (c name) (st1.arivRate name) := by
    intro name hname
    rw [arivRate_run hwatched hsteadyWarm hrun]
    exact hk name hname _ (hwarm name hname)
  have hresting : Resting g c (st1.results.count (some .success) + g.netNames.length) st1 :=
    ⟨hwatched.run hrun, hnear, Nat.add_le_add_left List.countP_le_length _⟩
  have hend := Machine.run_along (fun _ _ _ hI hC hstep => hI.step hnodup hc hC hstep)
    (Machine.along_of_forall hsteadyActs st1) hrest hresting
  have hbound := hend.decisions
  omega

/-- lenet1 and lenet2. -/
def lenets : Service := ⟨["lenet1", "lenet2"], fun _ => 30⟩

/-- Steps with one GPU of the type of `oneTarget`. -/
def lenetStep : Act → Monitored → Option Monitored :=
  step (plain (profile [100] fun _ _ => 5) [100] 1) lenets 1

/-- 120 requests per second for lenet1, and an epoch. -/
def firstEpoch : List Act :=
  [.count "lenet1" 60, .epoch (fun _ => ⟨fun _ => 0, fun _ => [], fun _ => none⟩) 1]

/-- From the first decision on. -/
theorem steady_traffic_settles_lenets :
    ∃ st, Machine.run lenetStep firstEpoch (start lenets Frontend.oneTarget) = some st ∧
      st.results = [some .success] ∧
      ∃ k, ∀ warm acts st1 st2, (∀ act ∈ warm ++ acts, act.Steady fun _ => 60) →
        (∀ name ∈ lenets.netNames, k ≤ warm.countP (Act.counts name)) →
        Machine.run lenetStep warm st = some st1 → Machine.run lenetStep acts st1 = some st2 →
        st2.results.count (some .success) ≤ st1.results.count (some .success) + 2 := by
  have hrecorded : Recorded Frontend.oneTarget.rates := by
    refine ⟨fun _ => Nat.zero_le 1, fun name => ?_⟩
    show 0 ≤ (if name = "lenet1" then some (100 : ℚ) else none).getD 0
    split <;> norm_num
  have hfirst : (Machine.run lenetStep firstEpoch (start lenets Frontend.oneTarget)).any
      (fun st => decide (st.results = [some .success])) = true := by decide +kernel
  obtain ⟨st, hrun, htest⟩ := Machine.run_any hfirst
  exact ⟨st, hrun, of_decide_eq_true htest,
    steady_traffic_settles hrecorded (by decide) hrun fun _ _ => by decide⟩

end Monitored

end Glet
