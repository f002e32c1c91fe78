import Glet.TargetRates

/-!
# The hysteresis of target rates

One turn of `setupTasks` compares the target of a model with its *goal*, the
room for the largest rate of its history. Inside a band around the target
nothing happens; outside of it the target becomes the goal and the model is
pushed once, and below it a system flush is requested as well.

The headroom drops from a half to a fifth where the rate reaches 125, so the
goal is not monotone in the rate. What a growing load does to a target depends
on the rate the target was set for (`Tracked`).
-/

namespace Glet

open Scheduler

namespace Rates

variable {r : Rates} {currRate : ℚ} {name other : String}

/-- What the target of a model is compared with, once its rate is recorded. -/
def goal (r : Rates) (name : String) (currRate : ℚ) : ℚ :=
  room (r.updateAndReturnMaxHistRate name currRate).1

/-- A goal above the band of a target: by more than 5% or more than 10 requests
per second. -/
def Above (tgt goal : ℚ) : Prop := 5 / 100 * tgt < goal - tgt ∨ 10 < goal - tgt

/-- A goal below the band of a target. -/
def Below (tgt goal : ℚ) : Prop := goal < 9 / 10 * tgt

instance (tgt goal : ℚ) : Decidable (Above tgt goal) := inferInstanceAs (Decidable (_ ∨ _))

instance (tgt goal : ℚ) : Decidable (Below tgt goal) := inferInstanceAs (Decidable (_ < _))

/-- Does the turn of a model ask for a system flush? -/
def requestsFlush (r : Rates) (currRate : ℚ) (name : String) : Prop :=
  ({ r with sysFlush := false }.setupTask true currRate name).1.sysFlush = true

theorem pntg_above {tgt goal : ℚ} (htgt : 0 < tgt) :
    5 < (goal - tgt) / tgt * 100 ∨ 10 < goal - tgt ↔ Above tgt goal := by
  have hpntg : 5 < (goal - tgt) / tgt * 100 ↔ 5 / 100 * tgt < goal - tgt := by
    rw [div_mul_eq_mul_div, lt_div_iff₀ htgt]
    constructor <;> intro h <;> linarith
  rw [Above, hpntg]

theorem pntg_below {tgt goal : ℚ} (htgt : 0 < tgt) :
    (goal - tgt) / tgt * 100 < -10 ↔ Below tgt goal := by
  rw [Below, div_mul_eq_mul_div, div_lt_iff₀ htgt]
  constructor <;> intro h <;> linarith

/-- The band around a positive target lies below one end and above the other. -/
theorem not_above_of_below {tgt goal : ℚ} (htgt : 0 < tgt) (h : Below tgt goal) :
    ¬ Above tgt goal := by
  rintro (habove | habove)
  all_goals
    rw [Below] at h
    linarith

/-! ## One turn -/

/-- The target after a turn. -/
def newTgt (tgt goal : ℚ) : ℚ := if Above tgt goal ∨ Below tgt goal then goal else tgt

/-- What a turn does to a model that has a target and is not flushed. -/
theorem setupTask_eq (htgt : 0 < r.tgt name) (hrun : ¬ (currRate < 1 ∧ 1 < r.tgt name)) :
    r.setupTask true currRate name =
      ({ perTaskTgtRate := Function.update r.perTaskTgtRate name
            (some (newTgt (r.tgt name) (r.goal name currRate)))
         perTaskRateHist := (r.updateAndReturnMaxHistRate name currRate).2.perTaskRateHist
         sysFlush := r.sysFlush || decide (Below (r.tgt name) (r.goal name currRate)) },
       if Above (r.tgt name) (r.goal name currRate) ∨ Below (r.tgt name) (r.goal name currRate) then
         [name] else []) := by
  have hsome : r.perTaskTgtRate name ≠ none := by
    intro hnone
    rw [tgt, hnone] at htgt
    exact lt_irrefl _ htgt
  have hlook : ((r.updateAndReturnMaxHistRate name currRate).2.lookup name).perTaskTgtRate name =
      some (r.tgt name) := by
    simp [lookup, setTgt]
  have hgoal : room (r.updateAndReturnMaxHistRate name currRate).1 = r.goal name currRate := rfl
  simp only [setupTask, hsome, and_false, if_false, tgt_updateAndReturnMaxHistRate, if_neg hrun,
    tgt_lookup, if_neg htgt.ne', hlook, hgoal, pntg_above htgt, pntg_below htgt, true_and]
  by_cases habove : Above (r.tgt name) (r.goal name currRate)
  · have hbelow : ¬ Below (r.tgt name) (r.goal name currRate) := fun h =>
      not_above_of_below htgt h habove
    simp [habove, hbelow, newTgt, lookup, setTgt, updateAndReturnMaxHistRate]
  · by_cases hbelow : Below (r.tgt name) (r.goal name currRate)
    · simp [habove, hbelow, newTgt, lookup, setTgt, updateAndReturnMaxHistRate]
    · simp [habove, hbelow, newTgt, lookup, setTgt, updateAndReturnMaxHistRate]
      rfl

/-- The flush flag after a turn. -/
theorem setupTask_sysFlush (r : Rates) (currRate : ℚ) (name : String) :
    (r.setupTask true currRate name).1.sysFlush = true ↔ r.sysFlush = true ∨
      (currRate < 1 ∧ 1 < r.tgt name) ∨
        (r.tgt name ≠ 0 ∧ (r.goal name currRate - r.tgt name) / r.tgt name * 100 < -10) := by
  cases hsome : r.perTaskTgtRate name with
  | none =>
      have hzero : r.tgt name = 0 := by rw [tgt, hsome, Option.getD_none]
      have hone : ¬ (1 : ℚ) < 0 := by norm_num
      by_cases hidle : currRate = 0
      · simp [setupTask, hsome, hidle, hzero, hone]
      · simp only [setupTask, hidle, false_and, if_false, tgt_updateAndReturnMaxHistRate, tgt_lookup,
          hzero, hone, and_false, if_true]
        simp [lookup, setTgt, updateAndReturnMaxHistRate]
  | some rate =>
      have hrate : r.tgt name = rate := by rw [tgt, hsome, Option.getD_some]
      have hlook : ((r.updateAndReturnMaxHistRate name currRate).2.lookup name).perTaskTgtRate name =
          some rate := by
        simp [lookup, setTgt, hrate]
      have hgoal : room (r.updateAndReturnMaxHistRate name currRate).1 = r.goal name currRate := rfl
      simp only [setupTask, hsome, reduceCtorEq, and_false, if_false, tgt_updateAndReturnMaxHistRate,
        tgt_lookup, hlook, hgoal, hrate, true_and]
      by_cases hrun : currRate < 1 ∧ 1 < rate
      · simp [hrun]
      · by_cases hzero : rate = 0
        · have hno : ¬ (rate ≠ 0 ∧ (r.goal name currRate - rate) / rate * 100 < -10) := fun h =>
            h.1 hzero
          rw [if_neg hrun, if_pos hzero, or_iff_left (not_or.mpr ⟨hrun, hno⟩)]
          exact Iff.rfl
        · by_cases hdown : (r.goal name currRate - rate) / rate * 100 < -10
          · simp [hrun, hzero, hdown]
          · by_cases hup : 5 < (r.goal name currRate - rate) / rate * 100 ∨
                10 < r.goal name currRate - rate
            · simp [hrun, hzero, hdown, hup, lookup, setTgt, updateAndReturnMaxHistRate]
            · simp [hrun, hzero, hdown, hup, lookup, setTgt, updateAndReturnMaxHistRate]

theorem requestsFlush_cases : r.requestsFlush currRate name ↔ (currRate < 1 ∧ 1 < r.tgt name) ∨
    (r.tgt name ≠ 0 ∧ (r.goal name currRate - r.tgt name) / r.tgt name * 100 < -10) := by
  rw [requestsFlush, setupTask_sysFlush]
  exact or_iff_right Bool.false_ne_true

/-- A running model asks for a flush from below its band only. -/
theorem requestsFlush_iff (htgt : 0 < r.tgt name) (hrun : ¬ (currRate < 1 ∧ 1 < r.tgt name)) :
    r.requestsFlush currRate name ↔ Below (r.tgt name) (r.goal name currRate) := by
  rw [requestsFlush_cases, or_iff_right hrun, pntg_below htgt]
  exact and_iff_right htgt.ne'

/-! ## The loop over the names -/

/-- Two states agree on what the turn of a model reads of the maps. -/
structure SameFor (name : String) (r r' : Rates) : Prop where
  tgt : r'.perTaskTgtRate name = r.perTaskTgtRate name
  hist : r'.perTaskRateHist name = r.perTaskRateHist name

namespace SameFor

variable {r' r'' : Rates} {rate : ℚ}

theorem refl (r : Rates) : SameFor name r r := ⟨rfl, rfl⟩

theorem trans (h : SameFor name r r') (h' : SameFor name r' r'') : SameFor name r r'' :=
  ⟨h'.tgt.trans h.tgt, h'.hist.trans h.hist⟩

theorem setTgt (h : SameFor name r r') (hne : name ≠ other) :
    SameFor name r (r'.setTgt other rate) :=
  ⟨(Function.update_of_ne hne ..).trans h.tgt, h.hist⟩

theorem flush (h : SameFor name r r') (b : Bool) : SameFor name r { r' with sysFlush := b } :=
  ⟨h.tgt, h.hist⟩

theorem record (hne : name ≠ other) :
    SameFor name r (r.updateAndReturnMaxHistRate other rate).2 :=
  ⟨rfl, Function.update_of_ne hne ..⟩

theorem tgt_eq (h : SameFor name r r') : r'.tgt name = r.tgt name := by
  rw [Rates.tgt, h.tgt, Rates.tgt]

theorem goal_eq (h : SameFor name r r') : r'.goal name currRate = r.goal name currRate := by
  rw [goal, goal, updateAndReturnMaxHistRate, updateAndReturnMaxHistRate, h.hist]

theorem requestsFlush_iff (h : SameFor name r r') :
    r'.requestsFlush currRate name ↔ r.requestsFlush currRate name := by
  rw [requestsFlush_cases, requestsFlush_cases, h.tgt_eq, h.goal_eq]

end SameFor

/-- The turn of another model. -/
theorem setupTask_other (hne : name ≠ other) :
    SameFor name r (r.setupTask true currRate other).1 := by
  have hrec : SameFor name r (r.updateAndReturnMaxHistRate other currRate).2 := SameFor.record hne
  unfold setupTask
  split
  · exact .refl r
  · generalize r.updateAndReturnMaxHistRate other currRate = updated at hrec
    obtain ⟨orgRate, r1⟩ := updated
    dsimp only at hrec ⊢
    split
    · exact (hrec.setTgt hne).flush true
    · have hlook : SameFor name r (r1.lookup other) := hrec.setTgt hne
      split
      · exact hlook
      · split
        · exact hlook.setTgt hne
        · split
          all_goals dsimp only
          all_goals split
          · exact ((hlook.setTgt hne).setTgt hne).flush true
          · exact (hlook.setTgt hne).flush true
          · exact hlook.setTgt hne
          · exact hlook

/-- The names that a turn pushes are those of its model. -/
theorem setupTask_pushed (hne : name ≠ other) :
    (r.setupTask true currRate other).2.count name = 0 := by
  have hmem : ∀ x ∈ (r.setupTask true currRate other).2, x = other := by
    unfold setupTask
    split
    · simp
    · generalize r.updateAndReturnMaxHistRate other currRate = updated
      obtain ⟨orgRate, r1⟩ := updated
      dsimp only
      split
      · simp
      · split
        · simp
        · split
          · simp
          · split
            all_goals dsimp only
            all_goals split
            all_goals simp
  exact List.count_eq_zero.mpr fun h => hne (hmem name h)

section Loop

variable {arivRate : String → ℚ} {names : List String}

/-- The turns of other models. -/
theorem setupTasksFrom_other (h : name ∉ names) :
    SameFor name r (setupTasksFrom true arivRate names r).1 ∧
      (setupTasksFrom true arivRate names r).2.count name = 0 := by
  induction names generalizing r with
  | nil => exact ⟨.refl r, rfl⟩
  | cons other names ih =>
      obtain ⟨hne, hrest⟩ := not_or.mp (mt List.mem_cons.mpr h)
      obtain ⟨hsame, hcount⟩ := ih (r := (r.setupTask true (arivRate other) other).1) hrest
      refine ⟨(setupTask_other hne).trans hsame, ?_⟩
      simp only [setupTasksFrom, List.count_append, hcount, setupTask_pushed hne]

/-- A model with a target is visited once, with the maps as they were for it
before the loop. -/
theorem setupTasksFrom_eq (hnodup : names.Nodup) (hname : name ∈ names) (htgt : 0 < r.tgt name)
    (hrun : ¬ (arivRate name < 1 ∧ 1 < r.tgt name)) :
    (setupTasksFrom true arivRate names r).1.tgt name =
        newTgt (r.tgt name) (r.goal name (arivRate name)) ∧
      (setupTasksFrom true arivRate names r).1.perTaskRateHist name =
        (r.updateAndReturnMaxHistRate name (arivRate name)).2.perTaskRateHist name ∧
      (setupTasksFrom true arivRate names r).2.count name =
        if Above (r.tgt name) (r.goal name (arivRate name)) ∨
          Below (r.tgt name) (r.goal name (arivRate name)) then 1 else 0 := by
  induction names generalizing r with
  | nil => cases hname
  | cons other names ih =>
      obtain ⟨hnot, hnodup⟩ := List.nodup_cons.mp hnodup
      rcases eq_or_ne name other with rfl | hne
      · have hturn := setupTask_eq htgt hrun
        obtain ⟨hsame, hcount⟩ := @setupTasksFrom_other
          (r.setupTask true (arivRate name) name).1 name arivRate names hnot
        refine ⟨?_, ?_, ?_⟩
        · refine hsame.tgt_eq.trans ?_
          simp only [hturn, tgt, Function.update_self, Option.getD_some]
        · refine hsame.hist.trans ?_
          rw [hturn]
        · simp only [setupTasksFrom, List.count_append, hcount, add_zero]
          rw [hturn]
          dsimp only
          split
          · exact List.count_singleton_self ..
          · rfl
      · have hsame : SameFor name r (r.setupTask true (arivRate other) other).1 := setupTask_other hne
        have hmem := (List.mem_cons.mp hname).resolve_left hne
        obtain ⟨htgt', hhist, hcount⟩ := ih (r := (r.setupTask true (arivRate other) other).1)
          hnodup hmem (by rwa [hsame.tgt_eq]) (by rwa [hsame.tgt_eq])
        rw [hsame.tgt_eq, hsame.goal_eq] at htgt' hcount
        refine ⟨htgt', hhist.trans ?_, ?_⟩
        · simp only [updateAndReturnMaxHistRate, Function.update_self, hsame.hist]
        · simp only [setupTasksFrom, List.count_append, setupTask_pushed hne, zero_add, hcount]

/-- The flush flag after the loop: it was set before, or one of the models asked
for it. -/
theorem setupTasksFrom_sysFlush (hnodup : names.Nodup) :
    (setupTasksFrom true arivRate names r).1.sysFlush = true ↔
      r.sysFlush = true ∨ ∃ name ∈ names, r.requestsFlush (arivRate name) name := by
  induction names generalizing r with
  | nil => simp [setupTasksFrom]
  | cons other names ih =>
      obtain ⟨hnot, hnodup⟩ := List.nodup_cons.mp hnodup
      have hothers : (∃ name ∈ names,
          (r.setupTask true (arivRate other) other).1.requestsFlush (arivRate name) name) ↔
          ∃ name ∈ names, r.requestsFlush (arivRate name) name := by
        refine exists_congr fun name => and_congr_right fun hname => ?_
        exact (setupTask_other (ne_of_mem_of_not_mem hname hnot)).requestsFlush_iff
      have hturn := setupTask_sysFlush r (arivRate other) other
      rw [← requestsFlush_cases] at hturn
      have hrest := ih (r := (r.setupTask true (arivRate other) other).1) hnodup
      rw [hothers, hturn, or_assoc] at hrest
      rw [List.exists_mem_cons_iff]
      exact hrest

end Loop

theorem newTgt_of_not {tgt goal : ℚ} (h : ¬ (Above tgt goal ∨ Below tgt goal)) :
    newTgt tgt goal = tgt ∧ goal - tgt ≤ 10 ∧ -(10 / 100 * tgt) ≤ goal - tgt ∧
      goal - tgt ≤ 5 / 100 * tgt := by
  obtain ⟨habove, hbelow⟩ := not_or.mp h
  obtain ⟨hpntg, hrate⟩ := not_or.mp habove
  rw [Below, not_lt] at hbelow
  rw [not_lt] at hpntg hrate
  exact ⟨if_neg h, hrate, by linarith, hpntg⟩

/-- A target is written exactly when its value changes. -/
theorem newTgt_eq_iff {tgt goal : ℚ} (htgt : 0 < tgt) :
    newTgt tgt goal = tgt ↔ ¬ (Above tgt goal ∨ Below tgt goal) := by
  refine ⟨fun heq hout => ?_, fun h => (newTgt_of_not h).1⟩
  rw [newTgt, if_pos hout] at heq
  rw [Above, Below, heq] at hout
  rcases hout with (habove | habove) | hbelow
  all_goals linarith

end Rates

/-! ## Target rates stay in the band -/

/-- The task that `setupTasks` appends for a model. -/
def taskOf (g : Service) (r : Rates) (name : String) : Task :=
  createNewTask (getModelID name) (toInt (r.tgt name)) (g.perModelSLO name) 0 0

/-- In a call of `setupTasks` a model with a target that is not flushed gets
its goal as target, or keeps its target in the band around the goal; it is
appended once, with its new target, if its target was rewritten and not at all
otherwise; and it asks for a flush from below the band only. -/
theorem targets_in_band (g : Service) (hnodup : g.netNames.Nodup) (arivRate : String → ℚ) (r : Rates)
    {name : String} (hname : name ∈ g.netNames) (htgt : 0 < r.tgt name)
    (hrun : ¬ (arivRate name < 1 ∧ 1 < r.tgt name)) :
    ((setupTasks g true arivRate r).1.tgt name = r.goal name (arivRate name) ∨
        (setupTasks g true arivRate r).1.tgt name = r.tgt name ∧
          r.goal name (arivRate name) - r.tgt name ≤ 10 ∧
          -(10 / 100 * r.tgt name) ≤ r.goal name (arivRate name) - r.tgt name ∧
          r.goal name (arivRate name) - r.tgt name ≤ 5 / 100 * r.tgt name) ∧
      (∃ names : List String,
        (setupTasks g true arivRate r).2 = names.map (taskOf g (setupTasks g true arivRate r).1) ∧
        names.count name =
          if (setupTasks g true arivRate r).1.tgt name = r.tgt name then 0 else 1) ∧
      (r.requestsFlush (arivRate name) name →
        r.goal name (arivRate name) < 9 / 10 * r.tgt name) ∧
      ((setupTasks g true arivRate r).1.sysFlush = true ↔
        r.sysFlush = true ∨ ∃ other ∈ g.netNames, r.requestsFlush (arivRate other) other) := by
  obtain ⟨hnew, -, hcount⟩ := Rates.setupTasksFrom_eq hnodup hname htgt hrun
  have htgt' : (setupTasks g true arivRate r).1.tgt name =
      Rates.newTgt (r.tgt name) (r.goal name (arivRate name)) := hnew
  refine ⟨?_, ⟨_, rfl, ?_⟩, (Rates.requestsFlush_iff htgt hrun).mp,
    Rates.setupTasksFrom_sysFlush hnodup⟩
  · by_cases hout : Rates.Above (r.tgt name) (r.goal name (arivRate name)) ∨
        Rates.Below (r.tgt name) (r.goal name (arivRate name))
    · exact Or.inl (htgt'.trans (if_pos hout))
    · obtain ⟨hkeep, hband⟩ := Rates.newTgt_of_not hout
      exact Or.inr ⟨htgt'.trans hkeep, hband⟩
  · rw [htgt', hcount]
    by_cases hout : Rates.Above (r.tgt name) (r.goal name (arivRate name)) ∨
        Rates.Below (r.tgt name) (r.goal name (arivRate name))
    · rw [if_pos hout, if_neg fun h => (Rates.newTgt_eq_iff htgt).mp h hout]
    · rw [if_neg hout, if_pos ((Rates.newTgt_eq_iff htgt).mpr hout)]

/-- lenet1 with a target of 100 and a rate of 80 gets the target 120. -/
theorem targets_in_band_at :
    (setupTasks ⟨["lenet1"], fun _ => 30⟩ true (fun _ => 80)
        ⟨fun _ => some 100, fun _ => [], false⟩).1.tgt "lenet1" = 120 := by
  have hband := (targets_in_band ⟨["lenet1"], fun _ => 30⟩ (by decide) (fun _ => 80)
    ⟨fun _ => some 100, fun _ => [], false⟩ (List.mem_singleton.mpr rfl) (by decide)
    (by decide)).1
  have hgoal : Rates.goal ⟨fun _ => some 100, fun _ => [], false⟩ "lenet1" 80 = 120 := by
    decide +kernel
  have htgt : Rates.tgt ⟨fun _ => some 100, fun _ => [], false⟩ "lenet1" = 100 := rfl
  rw [hgoal, htgt] at hband
  rcases hband with hnew | ⟨-, hup, -⟩
  · exact hnew
  · norm_num at hup

/-! ## Rising load -/

/-- The maps together with the rate that the target of a model was last set
for. -/
structure Tracked where
  rates : Rates
  setFor : ℚ

/-- An epoch of a model: a call of `setupTasks` with these arrival rates. -/
def trackedStep (g : Service) (name : String) (arivRate : String → ℚ) (t : Tracked) :
    Option Tracked :=
  let r := (setupTasks g true arivRate t.rates).1
  some ⟨r, if r.tgt name = t.rates.tgt name then t.setFor else arivRate name⟩

/-- The model's target was last set by `setupTasks`, for a rate from which the
load did not fall until it was last recorded. -/
structure Targeting (name : String) (t : Tracked) : Prop where
  one_le : 1 ≤ t.setFor
  tgt : t.rates.tgt name = Rates.room t.setFor
  hist : ∃ last, t.rates.perTaskRateHist name = [last] ∧ t.setFor ≤ last

/-- The load is at least what was recorded before. -/
def Rising (name : String) (t : Tracked) (arivRate : String → ℚ) : Prop :=
  ∀ last ∈ t.rates.perTaskRateHist name, last ≤ arivRate name

/-- The epoch lowers the model's target, or asks for a flush because of it. -/
def Lowers (g : Service) (name : String) (t : Tracked) (arivRate : String → ℚ) : Prop :=
  (setupTasks g true arivRate t.rates).1.tgt name < t.rates.tgt name ∨
    t.rates.requestsFlush (arivRate name) name

/-- The load crosses the threshold of the larger headroom with less than an
eighth more than the target was set for. -/
def Crosses (name : String) (t : Tracked) (arivRate : String → ℚ) : Prop :=
  t.setFor < 125 ∧ 125 ≤ arivRate name ∧ arivRate name < 9 / 8 * t.setFor

namespace Targeting

variable {g : Service} {name : String} {t t' : Tracked} {arivRate : String → ℚ}

theorem tgt_pos (h : Targeting name t) : 0 < t.rates.tgt name := by
  have hone := h.one_le
  rw [h.tgt, Rates.room]
  split <;> linarith

/-- The history holds one rate, so the goal is the room for the current one. -/
theorem goal_eq (h : Targeting name t) : t.rates.goal name (arivRate name) = Rates.room (arivRate name) := by
  obtain ⟨last, hhist, -⟩ := h.hist
  have hlen : histLen < 2 := by norm_num [histLen, epochInterval]
  simp [Rates.goal, Rates.updateAndReturnMaxHistRate, hhist, hlen, maxElement, one_add_one_eq_two]

theorem le_rate (h : Targeting name t) (hrise : Rising name t arivRate) :
    t.setFor ≤ arivRate name := by
  obtain ⟨last, hhist, hle⟩ := h.hist
  exact hle.trans (hrise last (hhist ▸ List.mem_singleton.mpr rfl))

theorem running (h : Targeting name t) (hrise : Rising name t arivRate) :
    ¬ (arivRate name < 1 ∧ 1 < t.rates.tgt name) := fun hidle =>
  absurd (h.one_le.trans (h.le_rate hrise)) (not_le.mpr hidle.1)

/-- The goal is below the band of the target exactly when the load crosses the
threshold by too little. -/
theorem below_iff (h : Targeting name t) (hrise : Rising name t arivRate) :
    Rates.Below (t.rates.tgt name) (t.rates.goal name (arivRate name)) ↔
      Crosses name t arivRate := by
  have hone := h.one_le
  have hle := h.le_rate hrise
  rw [h.goal_eq, h.tgt, Rates.Below, Crosses, Rates.room, Rates.room]
  split
  case isTrue hsmall =>
    have hset : t.setFor < 125 := lt_of_le_of_lt hle hsmall
    rw [if_pos hset]
    constructor
    · intro hlt
      linarith
    · exact fun hcross => absurd hsmall (not_lt.mpr hcross.2.1)
  case isFalse hlarge =>
    rw [not_lt] at hlarge
    split
    case isTrue hset =>
      constructor
      · exact fun hlt => ⟨hset, hlarge, by linarith⟩
      · rintro ⟨-, -, hlt⟩
        linarith
    case isFalse hset =>
      constructor
      · intro hlt
        linarith
      · exact fun hcross => absurd hcross.1 hset

theorem lowers_iff (hnodup : g.netNames.Nodup) (hname : name ∈ g.netNames) (h : Targeting name t)
    (hrise : Rising name t arivRate) : Lowers g name t arivRate ↔ Crosses name t arivRate := by
  have hpos := h.tgt_pos
  have hrun := h.running hrise
  have hnew : (setupTasks g true arivRate t.rates).1.tgt name =
      Rates.newTgt (t.rates.tgt name) (t.rates.goal name (arivRate name)) :=
    (Rates.setupTasksFrom_eq hnodup hname hpos hrun).1
  rw [Lowers, Rates.requestsFlush_iff hpos hrun, h.below_iff hrise]
  refine or_iff_right_of_imp fun hlow => ?_
  rw [hnew, Rates.newTgt] at hlow
  split at hlow
  case isTrue hout =>
    rcases hout with (habove | habove) | hbelow
    · linarith
    · linarith
    · exact (h.below_iff hrise).mp hbelow
  case isFalse => exact absurd hlow (lt_irrefl _)

/-- An epoch with a rising load leaves a target that was set by `setupTasks`. -/
theorem step (hnodup : g.netNames.Nodup) (hname : name ∈ g.netNames) (h : Targeting name t)
    (hrise : Rising name t arivRate) (hstep : trackedStep g name arivRate t = some t') :
    Targeting name t' := by
  obtain rfl := Option.some.inj hstep
  obtain ⟨last, hhist, hlast⟩ := h.hist
  have hle := h.le_rate hrise
  obtain ⟨hnew, hhist', -⟩ := Rates.setupTasksFrom_eq hnodup hname h.tgt_pos (h.running hrise)
  have hlen : histLen < 2 := by norm_num [histLen, epochInterval]
  have hkept : (setupTasks g true arivRate t.rates).1.perTaskRateHist name = [arivRate name] := by
    refine hhist'.trans ?_
    simp [Rates.updateAndReturnMaxHistRate, hhist, hlen, one_add_one_eq_two]
  by_cases hsame : (setupTasks g true arivRate t.rates).1.tgt name = t.rates.tgt name
  · refine ⟨?_, ?_, _, hkept, ?_⟩
    all_goals dsimp only
    all_goals rw [if_pos hsame]
    · exact h.one_le
    · rw [hsame, h.tgt]
    · exact hle
  · refine ⟨?_, ?_, _, hkept, ?_⟩
    all_goals dsimp only
    all_goals rw [if_neg hsame]
    · exact h.one_le.trans hle
    · have hgoal : Rates.newTgt (t.rates.tgt name) (t.rates.goal name (arivRate name)) =
          t.rates.goal name (arivRate name) := by
        rw [Rates.newTgt]
        split
        case isTrue => rfl
        case isFalse hin => exact absurd (hnew.trans (if_neg hin)) hsame
      rw [← h.goal_eq, ← hgoal]
      exact hnew

end Targeting

/-- Along a run of epochs with a rising load, the target of a model goes down
or a flush is asked for because of it exactly in the epochs in which the load
crosses the threshold by too little. -/
theorem rising_load_iff (g : Service) (hnodup : g.netNames.Nodup) {name : String}
    (hname : name ∈ g.netNames) (epochs : List (String → ℚ)) {t : Tracked}
    (htarget : Targeting name t)
    (hrise : Machine.Along (trackedStep g name) (Rising name) epochs t) :
    Machine.Along (trackedStep g name) (fun t e => ¬ Lowers g name t e) epochs t ↔
      Machine.Along (trackedStep g name) (fun t e => ¬ Crosses name t e) epochs t :=
  Machine.along_congr_of
    (fun _ _ _ h he hstep => h.step hnodup hname he hstep)
    (fun _ _ h he => not_congr (h.lowers_iff hnodup hname he)) hrise htarget

/-- From 124 to 125 requests per second the target goes from 186 to 150. -/
theorem rising_load_lowered :
    Targeting "lenet1" ⟨⟨fun _ => some 186, fun _ => [124], false⟩, 124⟩ ∧
      Rising "lenet1" ⟨⟨fun _ => some 186, fun _ => [124], false⟩, 124⟩ (fun _ => 125) ∧
      (setupTasks ⟨["lenet1"], fun _ => 30⟩ true (fun _ => 125)
        ⟨fun _ => some 186, fun _ => [124], false⟩).1.tgt "lenet1" = 150 ∧
      Rates.requestsFlush ⟨fun _ => some 186, fun _ => [124], false⟩ 125 "lenet1" := by
  refine ⟨⟨by norm_num, by decide +kernel, 124, rfl, le_rfl⟩, ?_, by decide +kernel,
    by unfold Rates.requestsFlush; decide +kernel⟩
  intro last hlast
  obtain rfl := List.mem_singleton.mp hlast
  norm_num

/-- From 100 to 125 requests per second it stays at 150. -/
theorem rising_load_kept :
    Machine.Along (trackedStep ⟨["lenet1"], fun _ => 30⟩ "lenet1")
      (fun t e => ¬ Lowers ⟨["lenet1"], fun _ => 30⟩ "lenet1" t e) [fun _ => 125]
      ⟨⟨fun _ => some 150, fun _ => [100], false⟩, 100⟩ := by
  refine (rising_load_iff ⟨["lenet1"], fun _ => 30⟩ (by decide) (List.mem_singleton.mpr rfl)
    [fun _ => 125] ⟨by norm_num, by decide +kernel, 100, rfl, le_rfl⟩ ⟨?_, fun _ _ => trivial⟩).mpr
    ⟨?_, fun _ _ => trivial⟩
  · intro last hlast
    obtain rfl := List.mem_singleton.mp hlast
    norm_num
  · rintro ⟨-, -, hlt⟩
    norm_num at hlt

end Glet
