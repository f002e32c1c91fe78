import Glet.TargetRates

/-!
# Epochs

`OracleScheduler` runs once per epoch. It routes the decision of the last
epoch, collects the models whose rates have changed, and calls `doScheduling`
on copies of the current decision until a call succeeds or no GPU can be
added. After a failure the backups taken at the start are written back.

The scale-up loop compares the number of GPUs with `getMaxGPUs`, which adds
up the table of device types, and adds a GPU with `setMaxGPUs`, which sets a
member that `getMaxGPUs` does not read. The loop therefore ends with the first
call that succeeds, or at once if the table already has all GPUs.
-/

namespace Glet

open Scheduler

/-! ## State -/

/-- The members of the global scheduler that an epoch changes; of its
`SBPScheduler` these are `_numMaxGPU` and the saturation tables. -/
structure Frontend where
  numMaxGPU : Int
  satTable : SatTable
  rates : Rates
  prevState : SimState
  currState : SimState
  nextState : SimState
  needUpdate : Bool

/-- What is read from outside while an epoch runs: the arrival rates, and for
each GPU the partitions that are loaded and the memory in use. -/
structure Environment where
  arivRate : String → ℚ
  loadedParts : Nat → List MemNode
  usedMem : Nat → Option Int

/-- `getMaxGPUs`. -/
def Scheduler.getMaxGPUs (s : Scheduler) : Int := (s.typeToNumofTypeTable.map (·.2)).sum

/-- `updateDevMemUsage`. -/
def updateDevMemUsage (used : List Int) (input : SimState) : SimState :=
  { input with vGPUList := input.vGPUList.zipIdx.map fun (g, i) =>
      match used[i]? with
      | some mem => { g with usedMemory := mem }
      | none => g }

/-- `updateGPUMemState`. -/
def Scheduler.updateGPUMemState (s : Scheduler) (env : Environment) (input : SimState) (n : Int) :
    Query SimState := do
  let input := if input.vGPUList = [] then s.initiateDevs input n else input
  assert (n ≤ input.vGPUList.length)
  let input : SimState := { input with vGPUList := input.vGPUList.zipIdx.map fun (g, i) =>
    if (i : Int) < n then { g with vLoadedParts := env.loadedParts i } else g }
  let input ← s.initDevMems input
  return updateDevMemUsage ((List.range n.toNat).filterMap env.usedMem) input

/-- The loop of `setupAllTasks`. -/
def Rates.setupAllFrom (arivRate : String → ℚ) : List String → Rates → Rates × List String
  | [], r => (r, [])
  | name :: names, r =>
      if arivRate name = 0 ∧ r.perTaskTgtRate name = none then setupAllFrom arivRate names r
      else
        let (r', rest) := setupAllFrom arivRate names (r.lookup name)
        if r.tgt name = 0 then (r', rest) else (r', name :: rest)

/-- `setupAllTasks`, with the entries its lookups make. -/
def setupAllTasks (g : Service) (arivRate : String → ℚ) (r : Rates) : Rates × List Task :=
  let (r, tasks) := Rates.setupAllFrom arivRate g.netNames r
  (r, tasks.map fun name =>
    createNewTask (getModelID name) (toInt (r.tgt name)) (g.perModelSLO name) 0 0)

def cmpTaskRateDsc (a b : Task) : Bool := decide (b.requestRate < a.requestRate)

namespace Frontend

variable (s : Scheduler)

/-- `FullRepartition`: result, output, and the global scheduler. -/
def fullRepartition (f : Frontend) (g : Service) (env : Environment) (input output : SimState) :
    Query (Ret × SimState × Frontend) := do
  let input : SimState := { input with vGPUList := [] }
  let output : SimState := { output with vGPUList := [] }
  let input ← s.updateGPUMemState env input s.getMaxGPUs
  let (rates, session) := setupAllTasks g env.arivRate f.rates
  let session := s.stdSort.sort cmpTaskRateDsc session
  let o ← (s.setMaxGPUs f.numMaxGPU).runScheduling f.satTable session input output true
  return (o.ret, o.out, { f with rates, satTable := o.table })

/-- `doScheduling`: result, session, output, and the global scheduler. -/
def doScheduling (f : Frontend) (g : Service) (env : Environment) (session : List Task)
    (prevOutput newOutput : SimState) : Query (Ret × List Task × SimState × Frontend) := do
  let newOutput : SimState := { newOutput with vGPUList := [] }
  let (f, prevOutput) : Frontend × SimState :=
    if s.getMaxGPUs ≠ prevOutput.vGPUList.length then
      ({ f with rates := { f.rates with sysFlush := true } }, { prevOutput with vGPUList := [] })
    else (f, prevOutput)
  let prevOutput ← s.updateGPUMemState env prevOutput s.getMaxGPUs
  if f.rates.sysFlush then do
    let f := { f with rates := { f.rates with sysFlush := false } }
    let (ret, output, f) ← f.fullRepartition s g env prevOutput newOutput
    return (ret, session, output, f)
  else do
    let o ← (s.setMaxGPUs f.numMaxGPU).runScheduling f.satTable session prevOutput newOutput false
    let f := { f with satTable := o.table }
    match o.ret with
    | .success => return (.success, o.tasks, o.out, f)
    | .failure => do
        let (ret, output, f) ← f.fullRepartition s g env o.prev o.out
        return (ret, o.tasks, output, f)

/-- The routing phase of an epoch. -/
def applyRouting (f : Frontend) : Frontend :=
  if f.needUpdate then
    let (_, prevState) := copyToOutput s f.currState
    let (nextState, currState) := copyToOutput s f.nextState
    { f with prevState, currState, nextState, needUpdate := false }
  else f

/-- "add more gpus and continue". -/
def scaleUp (f : Frontend) : Frontend :=
  { f with
    rates := { f.rates with sysFlush := true }
    numMaxGPU := s.getMaxGPUs + 1 }

/-- The loop of `OracleScheduler`, for a body that changes the global scheduler
and some data of its own: the result of the last turn, the number of turns,
and the state. -/
def scaleLoop {D : Type} (nGPUs : Int) (attempt : Nat → Frontend × D → Query (Ret × Frontend × D)) :
    Nat → Nat → Frontend × D → Query (Ret × Nat × Frontend × D)
  | 0, _, _ => .error .diverges
  | fuel + 1, turn, state => do
      let (ret, f, data) ← attempt turn state
      match ret with
      | .success => return (.success, turn + 1, f, data)
      | .failure =>
          if s.getMaxGPUs < nGPUs then
            scaleLoop nGPUs attempt fuel (turn + 1) (f.scaleUp s, data)
          else return (.failure, turn + 1, f, data)

/-- One turn of the loop: `doScheduling` on a copy of the current decision. -/
def attempt (g : Service) (env : Nat → Environment) (turn : Nat)
    (state : Frontend × List Task × SimState) : Query (Ret × Frontend × List Task × SimState) := do
  let (f, session, _) := state
  let (currState, prevOutput) := copyToOutput s f.currState
  let f := { f with currState }
  let (ret, session, output, f) ← f.doScheduling s g (env (turn + 1)) session prevOutput ⟨[], []⟩
  return (ret, f, session, output)

/-- `recoverFromScheduleFailure`. -/
def recoverFromScheduleFailure (f : Frontend) (backupRate : String → Option ℚ) (backup : SimState) :
    Frontend :=
  { f with
    rates := { f.rates with
      perTaskTgtRate := recoverTgtRates f.rates.perTaskTgtRate backupRate
      perTaskRateHist := removeMaxRates f.rates.perTaskRateHist }
    currState := { f.currState with vGPUList := backup.vGPUList } }

/-- `checkandReduceGPU`. -/
def checkandReduceGPU (f : Frontend) (decision : SimState) : Frontend :=
  let used : Int := (decision.vGPUList.filter fun g =>
    g.vNodeList.any fun n => !n.vTaskList.isEmpty).length
  if used < s.getMaxGPUs then { f with numMaxGPU := used } else f

/-- An epoch of `OracleScheduler` on a system with `nGPUs` GPUs; `env 0` is read
by `setupTasks` and `env k` in the `k`th turn of the loop. The result is that
of the loop, if it ran. -/
def oracleScheduler (f : Frontend) (g : Service) (nGPUs : Int) (env : Nat → Environment)
    (fuel : Nat) : Query (Option Ret × Frontend) := do
  let backupRate := f.rates.perTaskTgtRate
  let f := f.applyRouting s
  let (rates, session) := setupTasks g true (env 0).arivRate f.rates
  let f := { f with rates }
  if session = [] then return (none, f)
  else do
    let (currState, backup) := copyToOutput s f.currState
    let f := { f with currState }
    let (ret, _, f, _, output) ← scaleLoop s nGPUs (attempt s g env) fuel 0 (f, session, ⟨[], []⟩)
    match ret with
    | .failure => return (some .failure, f.recoverFromScheduleFailure backupRate backup)
    | .success =>
        let f := f.checkandReduceGPU s output
        let (_, nextState) := copyToOutput s output
        return (some .success, { f with nextState, needUpdate := true })

/-! ## The scale-up loop -/

variable {s} {D : Type} {nGPUs : Int}

/-- When the loop ends within `fuel` turns, for a body with given results. -/
theorem scaleLoop_ends {body : Nat → Frontend × D → Query (Ret × Frontend × D)} (outcomes : Nat → Ret)
    (hbody : ∀ k state, ∃ state', body k state = .ok (outcomes k, state')) (fuel turn : Nat)
    (state : Frontend × D) :
    (∃ res, scaleLoop s nGPUs body fuel turn state = .ok res) ↔
      (0 < fuel ∧ nGPUs ≤ s.getMaxGPUs) ∨ ∃ k < fuel, outcomes (turn + k) = .success := by
  induction fuel generalizing turn state with
  | zero => simp [scaleLoop]
  | succ fuel ih =>
      obtain ⟨⟨f, data⟩, hrun⟩ := hbody turn state
      unfold scaleLoop
      rw [hrun]
      cases hout : outcomes turn with
      | success =>
          refine iff_of_true ⟨_, rfl⟩ (Or.inr ⟨0, Nat.succ_pos _, hout⟩)
      | failure =>
          have hfirst : (∃ k < fuel + 1, outcomes (turn + k) = .success) ↔
              ∃ k < fuel, outcomes (turn + 1 + k) = .success := by
            constructor
            · rintro ⟨k, hk, hs⟩
              cases k with
              | zero =>
                  rw [Nat.add_zero, hout] at hs
                  cases hs
              | succ k => exact ⟨k, by omega, by rw [← hs]; congr 1; omega⟩
            · rintro ⟨k, hk, hs⟩
              exact ⟨k + 1, by omega, by rw [← hs]; congr 1; omega⟩
          rw [hfirst]
          by_cases hmore : s.getMaxGPUs < nGPUs
          · have hrest := ih (turn + 1) (f.scaleUp s, data)
            have hnot : ¬ nGPUs ≤ s.getMaxGPUs := not_le.mpr hmore
            simp only [hnot, and_false, false_or] at hrest ⊢
            rw [← hrest]
            simp [bind, Except.bind, hmore]
          · refine iff_of_true ⟨(.failure, turn + 1, f, data), ?_⟩
              (Or.inl ⟨Nat.succ_pos _, not_lt.mp hmore⟩)
            simp [bind, Except.bind, pure, Except.pure, hmore]

/-- The bound on the number of turns: one for each GPU that can be added, and
one more. -/
def turnBound (s : Scheduler) (nGPUs : Int) : Nat := (max 1 (nGPUs - s.getMaxGPUs + 1)).toNat

theorem turnBound_pos : 0 < turnBound s nGPUs := by
  unfold turnBound
  omega

/-- **The scale-up loop.** For every table of device types, every number of
GPUs and every sequence of results of `doScheduling`, the loop ends within the
bound exactly if the table has at least as many GPUs as the system, or one of
the calls within the bound succeeds. -/
theorem scale_up_ends_iff {body : Nat → Frontend × D → Query (Ret × Frontend × D)}
    (outcomes : Nat → Ret) (hbody : ∀ k state, ∃ state', body k state = .ok (outcomes k, state'))
    (state : Frontend × D) :
    (∃ res, scaleLoop s nGPUs body (turnBound s nGPUs) 0 state = .ok res) ↔
      nGPUs ≤ s.getMaxGPUs ∨ ∃ k < turnBound s nGPUs, outcomes k = .success := by
  rw [scaleLoop_ends outcomes hbody]
  simp only [turnBound_pos, true_and, Nat.zero_add]

/-- A global scheduler that has not scheduled anything. -/
def initial : Frontend where
  numMaxGPU := 1
  satTable := fun _ => none
  rates := ⟨fun _ => none, fun _ => [], false⟩
  prevState := ⟨[], []⟩
  currState := ⟨[], []⟩
  nextState := ⟨[], []⟩
  needUpdate := false

/-- One GPU in the table, two in the system: the second call succeeds. -/
theorem scale_up_second_turn :
    ∃ res, scaleLoop (plain (profile [100] fun _ _ => 5) [100] 1) 2
      (fun k state => .ok (if k = 1 then .success else .failure, state))
      (turnBound (plain (profile [100] fun _ _ => 5) [100] 1) 2) 0 (initial, ()) = .ok res :=
  (scale_up_ends_iff (fun k => if k = 1 then .success else .failure)
    (fun _ state => ⟨state, rfl⟩) (initial, ())).mpr (Or.inr ⟨1, by decide, rfl⟩)

/-- With the same numbers, a loop whose calls all fail never ends: it sets the
number of GPUs to 2 in every turn and reads 1 in every turn. -/
theorem scale_up_never_ends :
    ¬ ∃ fuel res, scaleLoop (plain (profile [100] fun _ _ => 5) [100] 1) 2
      (fun _ state => .ok (.failure, state)) fuel 0 (initial, ()) = .ok res := by
  rintro ⟨fuel, hends⟩
  revert hends
  rw [scaleLoop_ends (fun _ => .failure) (fun _ state => ⟨state, rfl⟩)]
  rintro (⟨-, hle⟩ | ⟨k, -, hs⟩)
  · revert hle
    decide
  · cases hs

/-! ## Failed epochs -/

/-- What a turn of the loop leaves alone: the next decision, and the targets,
absent ones read as 0. -/
structure Kept (f f' : Frontend) : Prop where
  next : f'.nextState = f.nextState
  need : f'.needUpdate = f.needUpdate
  tgt : ∀ name, f'.rates.tgt name = f.rates.tgt name

theorem Kept.trans {f f' f'' : Frontend} (h : Kept f f') (h' : Kept f' f'') : Kept f f'' :=
  ⟨h'.next.trans h.next, h'.need.trans h.need, fun name => (h'.tgt name).trans (h.tgt name)⟩

theorem setupAllFrom_tgt {arivRate : String → ℚ} {names : List String} {r : Rates}
    (other : String) : (Rates.setupAllFrom arivRate names r).1.tgt other = r.tgt other := by
  induction names generalizing r with
  | nil => rfl
  | cons name names ih =>
      unfold Rates.setupAllFrom
      split
      case isTrue => exact ih
      case isFalse =>
        dsimp only
        split
        all_goals exact (ih (r := r.lookup name)).trans (Rates.tgt_lookup ..)

theorem fullRepartition_kept {f f' : Frontend} {g : Service} {env : Environment}
    {input output out : SimState} {ret : Ret}
    (h : f.fullRepartition s g env input output = .ok (ret, out, f')) : Kept f f' := by
  simp only [fullRepartition, Query.bind_ok, Query.pure_ok, Prod.mk.injEq] at h
  obtain ⟨sim, -, o, -, -, -, rfl⟩ := h
  exact ⟨rfl, rfl, fun name => setupAllFrom_tgt name⟩

theorem doScheduling_kept {f f' : Frontend} {g : Service} {env : Environment}
    {session session' : List Task} {prevOutput newOutput out : SimState} {ret : Ret}
    (h : f.doScheduling s g env session prevOutput newOutput = .ok (ret, session', out, f')) :
    Kept f f' := by
  unfold doScheduling at h
  dsimp only at h
  have hflush : Kept f (if s.getMaxGPUs ≠ prevOutput.vGPUList.length then
      (({ f with rates := { f.rates with sysFlush := true } } : Frontend),
        ({ prevOutput with vGPUList := [] } : SimState))
    else (f, prevOutput)).1 := by
    split
    all_goals exact ⟨rfl, rfl, fun _ => rfl⟩
  generalize (if s.getMaxGPUs ≠ prevOutput.vGPUList.length then
      (({ f with rates := { f.rates with sysFlush := true } } : Frontend),
        ({ prevOutput with vGPUList := [] } : SimState))
    else (f, prevOutput)) = start at h hflush
  obtain ⟨f1, prev⟩ := start
  dsimp only at h hflush
  obtain ⟨sim, -, h⟩ := Query.bind_ok.mp h
  split at h
  case isTrue =>
    obtain ⟨⟨ret1, out1, f2⟩, hfull, h⟩ := Query.bind_ok.mp h
    simp only [Query.pure_ok, Prod.mk.injEq] at h
    obtain ⟨-, -, -, rfl⟩ := h
    have hkept := fullRepartition_kept hfull
    exact hflush.trans ⟨hkept.next, hkept.need, hkept.tgt⟩
  case isFalse =>
    obtain ⟨o, -, h⟩ := Query.bind_ok.mp h
    cases hret : o.ret with
    | success =>
        rw [hret] at h
        simp only [Query.pure_ok, Prod.mk.injEq] at h
        obtain ⟨-, -, -, rfl⟩ := h
        exact hflush.trans ⟨rfl, rfl, fun _ => rfl⟩
    | failure =>
        rw [hret] at h
        obtain ⟨⟨ret1, out1, f2⟩, hfull, h⟩ := Query.bind_ok.mp h
        simp only [Query.pure_ok, Prod.mk.injEq] at h
        obtain ⟨-, -, -, rfl⟩ := h
        have hkept := fullRepartition_kept hfull
        exact hflush.trans ⟨hkept.next, hkept.need, hkept.tgt⟩

theorem attempt_kept {g : Service} {env : Nat → Environment} {turn : Nat} {f f' : Frontend}
    {data data' : List Task × SimState} {ret : Ret}
    (h : attempt s g env turn (f, data) = .ok (ret, f', data')) : Kept f f' := by
  unfold attempt at h
  dsimp only at h
  obtain ⟨⟨ret1, session1, out1, f1⟩, hdo, h⟩ := Query.bind_ok.mp h
  simp only [Query.pure_ok, Prod.mk.injEq] at h
  obtain ⟨-, rfl, -⟩ := h
  have hkept := doScheduling_kept hdo
  exact ⟨hkept.next, hkept.need, hkept.tgt⟩

/-- What every turn leaves alone, the loop leaves alone. -/
theorem scaleLoop_kept {body : Nat → Frontend × D → Query (Ret × Frontend × D)}
    (hbody : ∀ {turn f data ret f' data'}, body turn (f, data) = .ok (ret, f', data') → Kept f f')
    {fuel turn turns : Nat} {f f' : Frontend} {data data' : D} {ret : Ret}
    (h : scaleLoop s nGPUs body fuel turn (f, data) = .ok (ret, turns, f', data')) : Kept f f' := by
  induction fuel generalizing turn f data with
  | zero => cases h
  | succ fuel ih =>
      unfold scaleLoop at h
      obtain ⟨⟨ret1, f1, data1⟩, hrun, h⟩ := Query.bind_ok.mp h
      have hfirst := hbody hrun
      cases ret1 with
      | success =>
          simp only [Query.pure_ok, Prod.mk.injEq] at h
          obtain ⟨-, -, rfl, -⟩ := h
          exact hfirst
      | failure =>
          dsimp only at h
          split at h
          case isTrue =>
            have hrest := ih h
            exact hfirst.trans ⟨hrest.next, hrest.need, hrest.tgt⟩
          case isFalse =>
            simp only [Query.pure_ok, Prod.mk.injEq] at h
            obtain ⟨-, -, rfl, -⟩ := h
            exact hfirst

end Frontend

/-- The GPUs, nodes and entries of a decision: all that `copyToOutput` copies. -/
def SimState.content (sim : SimState) : List (Nat × DeviceType × List Node) :=
  sim.vGPUList.map fun g => (g.GPUID, g.TYPE, g.vNodeList.map (SimState.copyNode 0))

theorem SimState.content_copy (s : Scheduler) (sim : SimState) :
    (copyToOutput s sim).2.content = sim.content := by
  simp only [content, copyToOutput, List.map_map]
  refine List.map_congr_left fun g _ => ?_
  simp only [Function.comp, copyGPU, List.map_map]
  refine congrArg _ (congrArg _ (List.map_congr_left fun n _ => ?_))
  simp [copyNode]

namespace Frontend

variable {s : Scheduler} {nGPUs : Int}

/-- Recovery writes the targets back: a target that was absent has stayed 0. -/
theorem tgt_recover {f : Frontend} {r : Rates} {backup : SimState}
    (hzero : ∀ name, r.perTaskTgtRate name = none → f.rates.tgt name = 0) (name : String) :
    (f.recoverFromScheduleFailure r.perTaskTgtRate backup).rates.tgt name = r.tgt name := by
  simp only [recoverFromScheduleFailure, Rates.tgt, recoverTgtRates]
  cases hname : r.perTaskTgtRate name with
  | none =>
      rw [Option.none_or]
      exact hzero name hname
  | some rate => rfl

/-- **Failed epochs.** If all calls of `doScheduling` in an epoch fail and the
loop gives up, the targets are those of the start of the epoch, the next
decision and its flag are those after routing, and the current decision has
the GPUs, nodes and entries it had after routing. -/
theorem failed_epoch_restores {f f' : Frontend} {g : Service} {env : Nat → Environment} {fuel : Nat}
    (h : f.oracleScheduler s g nGPUs env fuel = .ok (some .failure, f')) :
    (∀ name, f'.rates.tgt name = f.rates.tgt name) ∧
    f'.nextState = (f.applyRouting s).nextState ∧
    f'.needUpdate = (f.applyRouting s).needUpdate ∧
    f'.currState.content = (f.applyRouting s).currState.content := by
  have hroute : (f.applyRouting s).rates = f.rates := by
    unfold applyRouting
    split
    all_goals rfl
  unfold oracleScheduler at h
  dsimp only at h
  split at h
  case isTrue =>
    simp only [Query.pure_ok, Prod.mk.injEq] at h
    cases h.1
  case isFalse =>
    obtain ⟨⟨ret, turns, f1, session, output⟩, hloop, h⟩ := Query.bind_ok.mp h
    cases ret with
    | success =>
        simp only [Query.pure_ok, Prod.mk.injEq, Option.some.injEq] at h
        cases h.1
    | failure =>
        simp only [Query.pure_ok, Prod.mk.injEq] at h
        obtain ⟨-, rfl⟩ := h
        have hkept := scaleLoop_kept attempt_kept hloop
        refine ⟨fun name => tgt_recover (fun name hnone => ?_) name, hkept.next, hkept.need, ?_⟩
        · rw [hkept.tgt name]
          refine Rates.setupTasksFrom_zero ?_
          rw [hroute, Rates.tgt, hnone]
          rfl
        · exact SimState.content_copy s (f.applyRouting s).currState

/-- A global scheduler with one idle GPU that has lenet1 as its only target. -/
def oneTarget : Frontend :=
  { initial with
    rates := ⟨fun name => if name = "lenet1" then some 100 else none, fun _ => [], false⟩
    currState := (plain (profile [100] fun _ _ => 5) [100] 1).setUp }

/-- 50000 requests per second are too many for the only GPU; the target goes
back to 100. -/
theorem failed_epoch_overload :
    ∃ f', oneTarget.oracleScheduler (plain (profile [100] fun _ _ => 5) [100] 1)
        ⟨["lenet1", "lenet2"], fun _ => 30⟩ 1
        (fun _ => ⟨fun _ => 50000, fun _ => [], fun _ => none⟩) 1 = .ok (some .failure, f') ∧
      f'.rates.tgt "lenet1" = 100 ∧ f'.rates.tgt "lenet2" = 0 := by
  obtain ⟨⟨ret, f'⟩, hrun, hp⟩ := Query.of_returns
    (q := oneTarget.oracleScheduler (plain (profile [100] fun _ _ => 5) [100] 1)
      ⟨["lenet1", "lenet2"], fun _ => 30⟩ 1
      (fun _ => ⟨fun _ => 50000, fun _ => [], fun _ => none⟩) 1)
    (p := fun res => decide (res.1 = some .failure)) (by decide +kernel)
  obtain rfl := of_decide_eq_true hp
  obtain ⟨htgt, -⟩ := failed_epoch_restores hrun
  exact ⟨f', hrun, (htgt "lenet1").trans (by decide), (htgt "lenet2").trans (by decide)⟩

end Frontend

end Glet
