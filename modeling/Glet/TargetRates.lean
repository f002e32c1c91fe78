import Glet.Machine
import Glet.OneShot

/-!
# Target rates

Every epoch `setupTasks` compares the arrival rate of each model with the rate
the model is scheduled for, its *target*, and puts the models whose target has
to change into the next session. The targets are a map from names to rates
that is read with `operator[]`, so reading an absent target makes it 0; and
a model whose target is 0 is skipped. This makes 0 a target that no model
leaves again: `setupTasks` sees the models with traffic exactly as long as
their targets are not 0.
-/

namespace Glet

open Scheduler

/-! ## The maps of the global scheduler -/

/-- `mPerTaskTgtRate`, `mPerTaskRateHist` and the flush flag of `SysMonitor`. -/
structure Rates where
  perTaskTgtRate : String → Option ℚ
  perTaskRateHist : String → List ℚ
  sysFlush : Bool

/-- EPOCH_INTERVAL, in ms. -/
def epochInterval : ℚ := 20000

/-- HIST_LEN. -/
def histLen : ℚ := 30 / (epochInterval / 1000)

/-- `std::max_element` of a history. -/
def maxElement : List ℚ → ℚ
  | [] => 0
  | x :: xs => xs.foldl max x

theorem le_foldl_max (xs : List ℚ) (x : ℚ) : x ≤ xs.foldl max x := by
  induction xs generalizing x with
  | nil => exact le_refl x
  | cons y xs ih => exact le_trans (le_max_left x y) (ih (max x y))

namespace Rates

/-- The value of `mPerTaskTgtRate[name]`. -/
def tgt (r : Rates) (name : String) : ℚ := (r.perTaskTgtRate name).getD 0

def setTgt (r : Rates) (name : String) (rate : ℚ) : Rates :=
  { r with perTaskTgtRate := Function.update r.perTaskTgtRate name (some rate) }

/-- Reading `mPerTaskTgtRate[name]` makes an entry. -/
def lookup (r : Rates) (name : String) : Rates := r.setTgt name (r.tgt name)

theorem tgt_setTgt (r : Rates) (name other : String) (rate : ℚ) :
    (r.setTgt name rate).tgt other = if other = name then rate else r.tgt other := by
  unfold tgt setTgt
  by_cases h : other = name
  · simp [h]
  · simp [h]

@[simp] theorem tgt_lookup (r : Rates) (name other : String) :
    (r.lookup name).tgt other = r.tgt other := by
  rw [lookup, tgt_setTgt]
  split
  case isTrue h => rw [h]
  case isFalse => rfl

def updateAndReturnMaxHistRate (r : Rates) (name : String) (rate : ℚ) : ℚ × Rates :=
  let hist := rate :: r.perTaskRateHist name
  let hist := if histLen < hist.length then hist.dropLast else hist
  (maxElement hist, { r with perTaskRateHist := Function.update r.perTaskRateHist name hist })

/-- The history holds the rate that was just added. -/
theorem le_updateAndReturnMaxHistRate (r : Rates) (name : String) (rate : ℚ) :
    rate ≤ (r.updateAndReturnMaxHistRate name rate).1 := by
  unfold updateAndReturnMaxHistRate
  dsimp only
  split
  case isTrue hlong =>
    cases hhist : r.perTaskRateHist name with
    | nil =>
        rw [hhist] at hlong
        norm_num [histLen, epochInterval] at hlong
    | cons x xs =>
        rw [List.dropLast_cons_of_ne_nil (List.cons_ne_nil x xs)]
        exact le_foldl_max _ rate
  case isFalse => exact le_foldl_max _ rate

/-- The rate a model is to be scheduled for. -/
def room (orgRate : ℚ) : ℚ := if orgRate < 125 then orgRate * (3 / 2) else orgRate * (6 / 5)

/-- One turn of the loop of `setupTasks`: the maps, and the names pushed on
`tasks`. -/
def setupTask (r : Rates) (includeDownsize : Bool) (currRate : ℚ) (name : String) :
    Rates × List String :=
  if currRate = 0 ∧ r.perTaskTgtRate name = none then (r, [])
  else
    let (orgRate, r) := r.updateAndReturnMaxHistRate name currRate
    let tgtRate := room orgRate
    if currRate < 1 ∧ 1 < r.tgt name then ({ r.setTgt name 0 with sysFlush := true }, [])
    else
      let r := r.lookup name
      if r.tgt name = 0 then (r, [])
      else
        match r.perTaskTgtRate name with
        -- "target was not initiated at all": the lookup above has made an entry
        | none => (r.setTgt name tgtRate, [name])
        | some tgt =>
            let diffPntg := (tgtRate - tgt) / tgt * 100
            let diffRate := tgtRate - tgt
            let (r, up) :=
              if 5 < diffPntg ∨ 10 < diffRate then (r.setTgt name tgtRate, [name]) else (r, [])
            if includeDownsize ∧ diffPntg < -10 then
              ({ r.setTgt name tgtRate with sysFlush := true }, up ++ [name])
            else (r, up)

/-- The loop of `setupTasks` over the net names. -/
def setupTasksFrom (includeDownsize : Bool) (arivRate : String → ℚ) :
    List String → Rates → Rates × List String
  | [], r => (r, [])
  | name :: names, r =>
      let (r, pushed) := r.setupTask includeDownsize (arivRate name) name
      let (r, rest) := setupTasksFrom includeDownsize arivRate names r
      (r, pushed ++ rest)

end Rates

/-- What `setupTasks` reads besides the maps. -/
structure Service where
  netNames : List String
  perModelSLO : String → Int

/-- `setupTasks`: the maps, and the tasks appended to `output_vec`. -/
def setupTasks (g : Service) (includeDownsize : Bool) (arivRate : String → ℚ) (r : Rates) :
    Rates × List Task :=
  let (r, tasks) := Rates.setupTasksFrom includeDownsize arivRate g.netNames r
  (r, tasks.map fun name =>
    createNewTask (getModelID name) (toInt (r.tgt name)) (g.perModelSLO name) 0 0)

/-! ## What one turn does to a target -/

namespace Rates

variable {r : Rates} {includeDownsize : Bool} {currRate : ℚ} {name other : String}

@[simp] theorem tgt_updateAndReturnMaxHistRate :
    (r.updateAndReturnMaxHistRate name currRate).2.tgt other = r.tgt other := rfl

/-- A turn leaves the target of a model, clears it, or sets it to the room for
a rate that is at least the current one; it does the last only to a target
that is not 0. -/
theorem setupTask_cases (r : Rates) (includeDownsize : Bool) (currRate : ℚ) (name : String) :
    (∀ other, other ≠ name →
      (r.setupTask includeDownsize currRate name).1.tgt other = r.tgt other) ∧
    ((r.setupTask includeDownsize currRate name).1.tgt name = r.tgt name ∨
      (currRate < 1 ∧ (r.setupTask includeDownsize currRate name).1.tgt name = 0) ∨
      (r.tgt name ≠ 0 ∧ ∃ orgRate, currRate ≤ orgRate ∧
        (r.setupTask includeDownsize currRate name).1.tgt name = room orgRate)) := by
  unfold setupTask
  split
  case isTrue => exact ⟨fun _ _ => rfl, Or.inl rfl⟩
  case isFalse =>
    have horg := r.le_updateAndReturnMaxHistRate name currRate
    have htgt : ∀ other, (r.updateAndReturnMaxHistRate name currRate).2.tgt other = r.tgt other :=
      fun _ => rfl
    generalize r.updateAndReturnMaxHistRate name currRate = updated at horg htgt
    obtain ⟨orgRate, r1⟩ := updated
    dsimp only at horg htgt ⊢
    split
    case isTrue hidle =>
      refine ⟨fun other hne => ?_, Or.inr (Or.inl ⟨hidle.1, ?_⟩)⟩
      · exact (tgt_setTgt r1 name other 0).trans ((if_neg hne).trans (htgt other))
      · exact (tgt_setTgt r1 name name 0).trans (if_pos rfl)
    case isFalse =>
      split
      case isTrue =>
        exact ⟨fun other _ => by rw [tgt_lookup, htgt], Or.inl (by rw [tgt_lookup, htgt])⟩
      case isFalse hne0 =>
        rw [tgt_lookup, htgt] at hne0
        have hset : ∀ r2 : Rates, (∀ other, other ≠ name → r2.tgt other = r.tgt other) →
            (∀ other, other ≠ name → (r2.setTgt name (room orgRate)).tgt other = r.tgt other) ∧
            (r2.setTgt name (room orgRate)).tgt name = room orgRate := by
          intro r2 hr2
          refine ⟨fun other hne => ?_, ?_⟩
          · rw [tgt_setTgt, if_neg hne, hr2 other hne]
          · rw [tgt_setTgt, if_pos rfl]
        have hlook : ∀ other, (r1.lookup name).tgt other = r.tgt other := by
          intro other
          rw [tgt_lookup, htgt]
        split
        · obtain ⟨hother, hname⟩ := hset (r1.lookup name) fun other _ => hlook other
          exact ⟨hother, Or.inr (Or.inr ⟨hne0, orgRate, horg, hname⟩)⟩
        · obtain ⟨hother, hname⟩ := hset (r1.lookup name) fun other _ => hlook other
          split
          all_goals dsimp only
          all_goals split
          · obtain ⟨hother2, hname2⟩ := hset _ hother
            exact ⟨hother2, Or.inr (Or.inr ⟨hne0, orgRate, horg, hname2⟩)⟩
          · exact ⟨hother, Or.inr (Or.inr ⟨hne0, orgRate, horg, hname⟩)⟩
          · exact ⟨hother, Or.inr (Or.inr ⟨hne0, orgRate, horg, hname⟩)⟩
          · exact ⟨fun other _ => hlook other, Or.inl (hlook name)⟩

theorem room_ne_zero {orgRate : ℚ} (h : 1 ≤ orgRate) : room orgRate ≠ 0 := by
  unfold room
  split
  case isTrue => linarith
  case isFalse => linarith

/-- A target of 0 stays 0. -/
theorem setupTask_zero (h : r.tgt other = 0) :
    (r.setupTask includeDownsize currRate name).1.tgt other = 0 := by
  obtain ⟨hother, hname⟩ := setupTask_cases r includeDownsize currRate name
  by_cases hne : other = name
  · subst hne
    rcases hname with heq | ⟨-, heq⟩ | ⟨hnot, -⟩
    · rw [heq, h]
    · exact heq
    · exact absurd h hnot
  · rw [hother other hne, h]

/-- The target of a model with traffic stays different from 0. -/
theorem setupTask_live (arivRate : String → ℚ) (hlive : 1 ≤ arivRate other) (h : r.tgt other ≠ 0) :
    (r.setupTask includeDownsize (arivRate name) name).1.tgt other ≠ 0 := by
  obtain ⟨hother, hname⟩ := setupTask_cases r includeDownsize (arivRate name) name
  by_cases hne : other = name
  · subst hne
    rcases hname with heq | ⟨hidle, -⟩ | ⟨-, orgRate, hle, heq⟩
    · rw [heq]
      exact h
    · exact absurd hlive (not_le.mpr hidle)
    · rw [heq]
      exact room_ne_zero (le_trans hlive hle)
  · rw [hother other hne]
    exact h

theorem setupTasksFrom_zero {arivRate : String → ℚ} {names : List String} (h : r.tgt other = 0) :
    (setupTasksFrom includeDownsize arivRate names r).1.tgt other = 0 := by
  induction names generalizing r with
  | nil => exact h
  | cons name names ih => exact ih (setupTask_zero h)

theorem setupTasksFrom_live {arivRate : String → ℚ} {names : List String}
    (hlive : 1 ≤ arivRate other) (h : r.tgt other ≠ 0) :
    (setupTasksFrom includeDownsize arivRate names r).1.tgt other ≠ 0 := by
  induction names generalizing r with
  | nil => exact h
  | cons name names ih => exact ih (setupTask_live arivRate hlive h)

end Rates

/-! ## Sequences of epochs -/

/-- `RecoverTgtRates`: targets of the backup are written back, targets that
were absent then are left. -/
def recoverTgtRates (org backup : String → Option ℚ) : String → Option ℚ :=
  fun name => (backup name).or (org name)

/-- `removeMaxRates`. -/
def removeMaxRates (hist : String → List ℚ) : String → List ℚ := fun name =>
  if (hist name).length ≤ 1 then hist name
  else (hist name).filter fun rate => rate != maxElement (hist name)

/-- An epoch: the arrival rates when `setupTasks` runs, and whether scheduling
fails afterwards and the targets are recovered. -/
structure EpochInput where
  arivRate : String → ℚ
  failed : Bool

/-- What an epoch does to the maps. -/
def ratesStep (g : Service) (e : EpochInput) (r : Rates) : Option Rates :=
  let r1 := (setupTasks g true e.arivRate r).1
  some (if e.failed then
    { r1 with
      perTaskTgtRate := recoverTgtRates r1.perTaskTgtRate r.perTaskTgtRate
      perTaskRateHist := removeMaxRates r1.perTaskRateHist }
  else r1)

/-- After `setupTasks`, every model with at least one request per second has a
target, and is in the session if it had none. -/
def SeesTraffic (g : Service) (r : Rates) (e : EpochInput) : Prop :=
  ∀ name ∈ g.netNames, 1 ≤ e.arivRate name →
    (setupTasks g true e.arivRate r).1.tgt name ≠ 0 ∧
    (r.tgt name = 0 → ∃ t ∈ (setupTasks g true e.arivRate r).2, t.id = getModelID name)

/-- Before `setupTasks`, every model with at least one request per second has a
target. -/
def Targeted (g : Service) (r : Rates) (e : EpochInput) : Prop :=
  ∀ name ∈ g.netNames, 1 ≤ e.arivRate name → r.tgt name ≠ 0

theorem seesTraffic_iff_targeted (g : Service) (r : Rates) (e : EpochInput) :
    SeesTraffic g r e ↔ Targeted g r e := by
  constructor
  · intro hsees name hname hrate hzero
    exact (hsees name hname hrate).1 (Rates.setupTasksFrom_zero hzero)
  · intro htgt name hname hrate
    have hne := htgt name hname hrate
    exact ⟨Rates.setupTasksFrom_live hrate hne, fun hzero => absurd hzero hne⟩

/-- **Models with traffic are scheduling targets.** In every sequence of epochs
from any targets, `setupTasks` gives every model with traffic a target, and
puts it into the session if it had none, exactly if no model with traffic
comes to a call without a target. -/
theorem traffic_seen_iff (g : Service) (epochs : List EpochInput) (r : Rates) :
    Machine.Along (ratesStep g) (SeesTraffic g) epochs r ↔
      Machine.Along (ratesStep g) (Targeted g) epochs r :=
  Machine.along_congr (seesTraffic_iff_targeted g) epochs r

/-- lenet1 is idle for one epoch. Its target becomes 0, and when its traffic
comes back it is not scheduled again. -/
theorem idle_model_lost :
    ¬ Machine.Along (ratesStep ⟨["lenet1"], fun _ => 30⟩) (SeesTraffic ⟨["lenet1"], fun _ => 30⟩)
      [⟨fun _ => 100, false⟩, ⟨fun _ => 0, false⟩, ⟨fun _ => 100, false⟩]
      ⟨fun _ => some 50, fun _ => [], false⟩ := by
  intro h
  have hlast := ((h.2 _ rfl).2 _ rfl).1 "lenet1" (by decide) (by decide)
  refine hlast.1 ?_
  decide +kernel

end Glet
