import Glet.Avoids
import Glet.Calls

/-!
# Where the saturation table is looked up

Only `getMaxSaturateTrp` stops with `notFound`. The routines that do not call
it avoid that fault, which the instances below derive from their text. What
is left are the calls of `getMinPartSum`, `estimateTrp`, `getMaxReturnPart`
and `mergeResidue`: `Visits.lookup` finds, in a run that stops with
`notFound`, one of these calls that did.
-/

namespace Glet

open Recorder

/-! ## Other faults -/

section Faults

variable {β : Type}

instance assertion_found : Avoids Fault.notFound (.error .assertion : Query β) := .error (by decide)

instance badAccess_found : Avoids Fault.notFound (.error .badAccess : Query β) := .error (by decide)

instance badQuery_found : Avoids Fault.notFound (.error .badQuery : Query β) := .error (by decide)

instance nonFinite_found : Avoids Fault.notFound (.error .nonFinite : Query β) := .error (by decide)

instance diverges_found : Avoids Fault.notFound (.error .diverges : Query β) := .error (by decide)

instance assert_found (p : Prop) [Decidable p] : Avoids Fault.notFound (assert p) := by
  unfold assert
  infer_instance

instance fdiv_found (a b : ℚ) : Avoids Fault.notFound (fdiv a b) := by
  unfold fdiv
  infer_instance

end Faults

/-! ## Latencies -/

instance getModelName_found (id : Int) : Avoids Fault.notFound (getModelName id) := by
  unfold getModelName
  split
  · infer_instance
  · split <;> infer_instance

namespace Scheduler

variable {s : Scheduler}

section Latencies

variable {device : DeviceType} {id batch part : Int} {node : Node} {sim : SimState}

instance getBatchLatency_found {name : Model} :
    Avoids Fault.notFound (s.getBatchLatency name batch) := by
  unfold getBatchLatency
  infer_instance

instance devLatency_found {name : Model} :
    Avoids Fault.notFound (s.devLatency device name batch part) := by
  unfold devLatency
  split <;> infer_instance

instance batchOverhead_found {name : Model} :
    Avoids Fault.notFound (s.batchOverhead name batch) := by
  unfold batchOverhead
  infer_instance

instance soloLatency_found : Avoids Fault.notFound (s.soloLatency device id batch part) := by
  unfold soloLatency
  infer_instance

instance getLatency_found : Avoids Fault.notFound (s.getLatency device id batch part) := by
  unfold getLatency
  infer_instance

instance getInterferencePair_found {b bBatch bPart : Int} :
    Avoids Fault.notFound (s.getInterferencePair device id b batch bBatch part bPart) := by
  unfold getInterferencePair
  infer_instance

instance maxInterference_found {nodePart : Int} {ts : List Task} {acc : ℚ} :
    Avoids Fault.notFound (s.maxInterference device id batch nodePart part ts acc) := by
  induction ts generalizing acc with
  | nil => exact .ok _
  | cons t ts ih =>
      unfold maxInterference
      infer_instance

instance getInterference_found {ns : List Node} {acc : ℚ} :
    Avoids Fault.notFound (s.getInterference device id batch node ns acc) := by
  induction ns generalizing acc with
  | nil => exact .ok _
  | cons n ns ih =>
      unfold getInterference
      infer_instance

instance getLatencyOn_found : Avoids Fault.notFound (s.getLatencyOn device id batch node sim) := by
  unfold getLatencyOn
  refine .bind fun _ => .bind fun _ => ?_
  split
  · refine .bind fun _ => .bind fun _ => .bind fun _ => ?_
    split <;> infer_instance
  · infer_instance

/-! ## Batch sizes -/

instance maxBatchLoop_found {latencyAt : Int → Query ℚ} {fits : ℚ → Int → Bool} {fuel : Nat}
    {low high : Int} [∀ b, Avoids Fault.notFound (latencyAt b)] :
    Avoids Fault.notFound (maxBatchLoop latencyAt fits fuel low high) := by
  induction fuel generalizing low high with
  | zero => exact diverges_found
  | succ fuel ih =>
      unfold maxBatchLoop
      infer_instance

instance getMaxBatch_found {SLO req : Int} {isResidue interference : Bool} :
    Avoids Fault.notFound (s.getMaxBatch id SLO node sim req isResidue interference) := by
  unfold getMaxBatch
  infer_instance

instance latencySum_found {ts : List Task} :
    Avoids Fault.notFound (s.latencySum node sim ts) := by
  induction ts with
  | nil => exact .ok _
  | cons t ts ih =>
      unfold latencySum
      infer_instance

instance shrinkResBatch_found {t : Task} {other latency duty : ℚ} {k : Nat} :
    Avoids Fault.notFound (s.shrinkResBatch node sim t other k latency duty) := by
  induction k using Nat.strong_induction_on generalizing latency duty with
  | h k ih =>
      unfold shrinkResBatch
      split
      · split
        · infer_instance
        · infer_instance
        · rename_i k
          have hrec : ∀ latency duty,
              Avoids Fault.notFound (s.shrinkResBatch node sim t other (k + 1) latency duty) :=
            fun _ _ => ih (k + 1) (Nat.lt_succ_self _)
          infer_instance
      · infer_instance

instance shrinkResTasks_found {sum : ℚ} {ts : List Task} :
    Avoids Fault.notFound (s.shrinkResTasks node sim sum ts) := by
  induction ts with
  | nil => exact .ok _
  | cons t ts ih =>
      unfold shrinkResTasks
      refine .bind fun _ => .bind fun r => ?_
      split
      · infer_instance
      · refine .bind fun rs => ?_
        split <;> infer_instance

instance rewriteResTasks_found {duty : ℚ} {ts : List Task} {rs : List (Int × ℚ)} :
    Avoids Fault.notFound (rewriteResTasks duty ts rs) := by
  induction ts generalizing rs with
  | nil =>
      unfold rewriteResTasks
      infer_instance
  | cons t ts ih =>
      cases rs with
      | nil =>
          unfold rewriteResTasks
          infer_instance
      | cons r rs =>
          unfold rewriteResTasks
          infer_instance

instance adjustResNode_found : Avoids Fault.notFound (s.adjustResNode node sim) := by
  unfold adjustResNode
  refine .bind fun _ => ?_
  dsimp only
  split
  · infer_instance
  · refine .bind fun rs => ?_
    split <;> infer_instance

instance shrinkSatBatch_found {t : Task} {latency duty : ℚ} {k : Nat} :
    Avoids Fault.notFound (s.shrinkSatBatch node sim t k latency duty) := by
  induction k using Nat.strong_induction_on generalizing latency duty with
  | h k ih =>
      unfold shrinkSatBatch
      split
      · split
        · infer_instance
        · infer_instance
        · rename_i k
          have hrec : ∀ latency duty,
              Avoids Fault.notFound (s.shrinkSatBatch node sim t (k + 1) latency duty) :=
            fun _ _ => ih (k + 1) (Nat.lt_succ_self _)
          infer_instance
      · infer_instance

instance adjustSatNode_found : Avoids Fault.notFound (s.adjustSatNode node sim) := by
  unfold adjustSatNode
  split
  · refine .bind fun _ => .bind fun _ => ?_
    split
    · infer_instance
    · refine .bind fun _ => .bind fun r => ?_
      split <;> infer_instance
  · infer_instance

end Latencies

/-! ## Fitting gpu-lets -/

section Fitting

variable {gpu : GPU} {id : Int} {node input : Node} {sim : SimState} {task : Task}

instance doesFitMemLimit_found : Avoids Fault.notFound (s.doesFitMemLimit gpu id node) := by
  unfold doesFitMemLimit
  infer_instance

instance addedGPUMemUsage_found : Avoids Fault.notFound (s.addedGPUMemUsage gpu id node) := by
  unfold addedGPUMemUsage
  infer_instance

instance subtractedGPUMemUsage_found :
    Avoids Fault.notFound (s.subtractedGPUMemUsage gpu id node) := by
  unfold subtractedGPUMemUsage
  infer_instance

instance netBatchLoop_found {remain : ℚ} {k : Nat} :
    Avoids Fault.notFound (s.netBatchLoop task remain k) := by
  induction k with
  | zero => exact .ok _
  | succ k ih =>
      unfold netBatchLoop
      infer_instance

instance limitToNetBW_found : Avoids Fault.notFound (s.limitToNetBW task gpu) := by
  unfold limitToNetBW adjustBatchSizetoNetBW
  infer_instance

instance neighbourDisturbed_found {device : DeviceType} {ts : List Task} :
    Avoids Fault.notFound (s.neighbourDisturbed device node ts) := by
  induction ts with
  | nil => exact .ok _
  | cons t ts ih =>
      unfold neighbourDisturbed
      infer_instance

instance checkForInterference_found {device : DeviceType} :
    Avoids Fault.notFound (s.checkForInterference device node sim) := by
  unfold checkForInterference
  split
  · infer_instance
  · split <;> infer_instance

instance fitsNode_found : Avoids Fault.notFound (s.fitsNode sim input task gpu node) := by
  unfold fitsNode
  infer_instance

instance bestFitLoop_found {exclude as : List Addr} {best : Int × Option Addr} :
    Avoids Fault.notFound (s.bestFitLoop sim input exclude as best) := by
  induction as generalizing best with
  | nil => exact .ok _
  | cons a as ih =>
      unfold bestFitLoop
      split
      · split
        · infer_instance
        · split <;> infer_instance
      · infer_instance

instance findBestFit_found {exclude : List Addr} :
    Avoids Fault.notFound (s.findBestFit sim input exclude) := by
  unfold findBestFit
  infer_instance

instance checkFitOne_found {fuel : Nat} {flagged : List Addr} {remain : List (Addr × Int)} :
    Avoids Fault.notFound (s.checkFitOne sim input fuel flagged remain) := by
  induction fuel generalizing flagged remain with
  | zero => exact diverges_found
  | succ fuel ih =>
      unfold checkFitOne
      refine .bind fun _ => ?_
      split
      · infer_instance
      · split <;> infer_instance

instance checkFit_found {candidates : List Node} :
    Avoids Fault.notFound (s.checkFit candidates sim) := by
  have hloop : ∀ flagged remain,
      Avoids Fault.notFound (s.checkFitLoop sim candidates flagged remain) := by
    induction candidates with
    | nil => exact fun _ _ => .ok _
    | cons input rest ih =>
        intro flagged remain
        unfold checkFitLoop
        refine .bind fun _ => ?_
        split <;> infer_instance
  exact hloop [] []

instance resizeInput_found {pntg : Int} : Avoids Fault.notFound (s.resizeInput sim input pntg) := by
  unfold resizeInput
  dsimp only
  split
  · refine .bind fun _ => ?_
    split <;> infer_instance
  · infer_instance

instance satTrpEntry_found {type : DeviceType} {part : Int} :
    Avoids Fault.notFound (s.satTrpEntry task type part) := by
  unfold satTrpEntry
  infer_instance

instance satTrpEntries_found {pairs : List (DeviceType × Int)} :
    Avoids Fault.notFound (s.satTrpEntries task pairs) := by
  induction pairs with
  | nil => exact .ok _
  | cons pair pairs ih =>
      unfold satTrpEntries
      refine .bind fun _ => ?_
      split
      · infer_instance
      · refine .bind fun _ => ?_
        split <;> infer_instance

instance tableFor_found {table : SatTable} : Avoids Fault.notFound (s.tableFor table task) := by
  unfold tableFor initSaturateTrp
  split
  · refine .bind fun _ => ?_
    split <;> infer_instance
  · infer_instance

end Fitting

/-! ## Time sharing -/

section Sharing

variable {task : Task} {node : Node} {sim : SimState}

instance shareSearch_found {k : Nat} {found : Int × ℚ} :
    Avoids Fault.notFound (s.shareSearch task node sim k found) := by
  induction k generalizing found with
  | zero => exact .ok _
  | succ k ih =>
      unfold shareSearch
      infer_instance

instance sharedLatency_found {duty : Int} {ts : List Task} :
    Avoids Fault.notFound (s.sharedLatency duty node sim ts) := by
  induction ts with
  | nil => exact .ok _
  | cons t ts ih =>
      unfold sharedLatency
      infer_instance

instance shareNode_found : Avoids Fault.notFound (s.shareNode task node sim) := by
  unfold shareNode
  infer_instance

instance shareCandidates_found {tsNodes : List Node} {as : List Addr} :
    Avoids Fault.notFound (s.shareCandidates task sim tsNodes as) := by
  induction as with
  | nil => exact .ok _
  | cons a as ih =>
      unfold shareCandidates
      split <;> infer_instance

end Sharing

/-! ## Programs -/

section Programs

variable {β : Type} {a : Addr} {task : Task} {table : SatTable}

instance getSim_found : Prog.Avoids Fault.notFound getSim := by
  unfold getSim
  infer_instance

instance getTask_found : Prog.Avoids Fault.notFound getTask := by
  unfold getTask
  infer_instance

instance query_found {q : Query β} [Avoids Fault.notFound q] :
    Prog.Avoids Fault.notFound (query q) := by
  unfold query
  infer_instance

instance getNode_found : Prog.Avoids Fault.notFound (getNode a) := by
  refine @Prog.Avoids.ask _ _ _ _ _ _ fun c => ?_
  split <;> infer_instance

instance getGPU_found {i : Nat} : Prog.Avoids Fault.notFound (getGPU i) := by
  refine @Prog.Avoids.ask _ _ _ _ _ _ fun c => ?_
  split <;> infer_instance

instance act_found {act : Action} : Prog.Avoids Fault.notFound (s.act act) := by
  unfold Scheduler.act
  infer_instance

instance addGPUMemUsage_found : Prog.Avoids Fault.notFound (s.addGPUMemUsage a) := by
  unfold addGPUMemUsage
  split
  · refine .bind fun _ => .bind fun _ => .bind fun _ => .bind fun _ => ?_
    split <;> infer_instance
  · infer_instance

instance adjustFitNodes_found {as : List Addr} :
    Prog.Avoids Fault.notFound (s.adjustFitNodes as) := by
  induction as with
  | nil => exact .pure _
  | cons a as ih =>
      unfold adjustFitNodes
      refine .bind fun _ => .bind fun _ => ?_
      split
      · refine .bind fun _ => ?_
        split <;> infer_instance
      · refine .bind fun _ => ?_
        split <;> infer_instance

instance allocateFitOne_found {input : Node} :
    Prog.Avoids Fault.notFound (s.allocateFitOne input) := by
  unfold allocateFitOne adjustFit
  refine .bind fun _ => .bind fun found => ?_
  split
  · infer_instance
  · refine .bind fun best => ?_
    extract_lets grows splits place
    have hplace : ∀ resized, Prog.Avoids Fault.notFound (place resized) := by
      intro resized
      cases resized with
      | none => exact .pure _
      | some n =>
          simp -zeta only [place]
          extract_lets commit
          have hcommit : ∀ u, Prog.Avoids Fault.notFound (commit u) := by
            intro u
            refine .bind fun _ => .bind fun _ => .bind fun ret => ?_
            split
            · infer_instance
            · refine .bind fun _ => .bind fun _ => ?_
              split <;> infer_instance
          clear_value commit
          infer_instance
    infer_instance

instance allocateFit_found {inputs : List Node} :
    Prog.Avoids Fault.notFound (s.allocateFit inputs) := by
  induction inputs with
  | nil =>
      unfold allocateFit
      infer_instance
  | cons input inputs ih =>
      unfold allocateFit
      refine .bind fun _ => ?_
      split <;> infer_instance

instance adjustOtherNodes_found {new : Node} {as : List Addr} {revert : Bool} :
    Prog.Avoids Fault.notFound (s.adjustOtherNodes new as revert) := by
  induction as generalizing revert with
  | nil => exact .pure _
  | cons a as ih =>
      unfold adjustOtherNodes
      refine .bind fun _ => .bind fun _ => ?_
      split
      · infer_instance
      · split
        · refine .bind fun _ => ?_
          split <;> infer_instance
        · refine .bind fun _ => ?_
          split <;> infer_instance

instance settle_found {remaining : Int → ℚ → Int} :
    Prog.Avoids Fault.notFound (s.settle a task remaining) := by
  unfold settle checkNeedtoRevert
  infer_instance

instance placeSaturated_found {batch : Int} {latency trp : ℚ} :
    Prog.Avoids Fault.notFound (s.placeSaturated a batch latency trp) := by
  unfold placeSaturated
  refine .bind fun _ => .bind fun _ => .bind fun _ => .bind fun _ => ?_
  split <;> infer_instance

instance placeResidue_found : Prog.Avoids Fault.notFound (s.placeResidue a) := by
  unfold placeResidue
  refine .bind fun _ => .bind fun _ => .bind fun _ => .bind fun _ => ?_
  dsimp only
  refine .bind fun _ => ?_
  split
  · infer_instance
  · refine .bind fun _ => .bind fun _ => .bind fun _ => .bind fun _ => .bind fun _ => ?_
    split <;> infer_instance

instance wipeResidues_found {as : List Addr} : Prog.Avoids Fault.notFound (s.wipeResidues as) := by
  induction as with
  | nil => exact .pure _
  | cons a as ih =>
      unfold wipeResidues
      infer_instance

instance replaceResidue_found {rate part : Int} {type : DeviceType} {as : List Addr} :
    Prog.Avoids Fault.notFound (s.replaceResidue rate type part as) := by
  induction as generalizing rate with
  | nil =>
      unfold replaceResidue
      infer_instance
  | cons a as ih =>
      unfold replaceResidue
      refine .bind fun _ => .bind fun _ => .bind fun _ => .bind fun _ => .bind fun _ => ?_
      split
      · refine .bind fun _ => ?_
        split
        infer_instance
      · infer_instance

instance unifyNodes_found {gs : List Nat} : Prog.Avoids Fault.notFound (s.unifyNodes gs) := by
  induction gs with
  | nil => exact .pure _
  | cons g gs ih =>
      unfold unifyNodes
      infer_instance

instance shareFirst_found {as : List Addr} : Prog.Avoids Fault.notFound (s.shareFirst as) := by
  induction as with
  | nil => exact .pure _
  | cons a as ih =>
      unfold shareFirst
      refine .bind fun _ => .bind fun _ => .bind fun _ => .bind fun _ => ?_
      split <;> infer_instance

instance allocateTimeShare_found {tsNodes : List Addr} :
    Prog.Avoids Fault.notFound (s.allocateTimeShare tsNodes) := by
  have hloop : ∀ candidates fuel, Prog.Avoids Fault.notFound (s.shareLoop candidates fuel) := by
    intro candidates fuel
    induction fuel with
    | zero =>
        unfold shareLoop
        infer_instance
    | succ fuel ih =>
        unfold shareLoop
        infer_instance
  unfold allocateTimeShare
  infer_instance

instance forgetTask_found {as : List Addr} : Prog.Avoids Fault.notFound (s.forgetTask as) := by
  induction as with
  | nil => exact .pure _
  | cons a as ih =>
      unfold forgetTask
      refine .bind fun _ => .bind fun _ => ?_
      extract_lets found update
      have hupdate : ∀ u, Prog.Avoids Fault.notFound (update u) := by
        intro u
        refine .bind fun _ => .bind fun _ => .bind fun _ => .bind fun _ => .bind fun _ => ?_
        refine .bind fun lists => ?_
        split
        infer_instance
      split
      · refine .bind fun lists => ?_
        split
        infer_instance
      · infer_instance

end Programs

/-! ## Calls that look the table up -/

variable {r r' : Rec Core Action} {table : SatTable} {given : List Addr} {β γ : Type}

theorem of_query {q : Query β} {f : β → Sched γ} {e : Fault} (h : (query q >>= f) r = .error e) :
    q = .error e ∨ ∃ b, q = .ok b ∧ f b r = .error e := by
  cases hq : q with
  | ok b => exact Or.inr ⟨b, rfl, (query_then f hq).symm.trans h⟩
  | error e' => exact Or.inl (congrArg Except.error
      (Except.error.inj ((query_stops f hq).symm.trans h)))

theorem of_query_found {q : Query β} [hq : Avoids Fault.notFound q] {f : β → Sched γ}
    (h : (query q >>= f) r = .error .notFound) : ∃ b, q = .ok b ∧ f b r = .error .notFound :=
  (of_query h).resolve_left hq.ne

theorem of_getNode {a : Addr} {f : Node → Sched γ} (h : (getNode a >>= f) r = .error .notFound) :
    ∃ n, r.cur.sim.node? a = some n ∧ f n r = .error .notFound := by
  cases hn : r.cur.sim.node? a with
  | some n => exact ⟨n, rfl, (getNode_then f hn).symm.trans h⟩
  | none =>
      have hstop : (getNode a >>= f) r = .error .badAccess :=
        Prog.bind_of_error (Prog.ask_of_error (by rw [hn]))
      rw [hstop] at h
      cases h

/-- The calls that look the saturation table up themselves. -/
def Call.Looks : Call → Prop
  | .getMinPartSum .. | .estimate .. | .getMaxReturnPart .. | .mergeResidue _ => True
  | _ => False

/-- A call leads to a lookup without a row. -/
def Misses (s : Scheduler) (c : Call × Rec Core Action) : Prop :=
  ∃ c', s.Visits c c' ∧ c'.1.Looks ∧ c'.1.Stops s .notFound c'.2

theorem Misses.here {c : Call × Rec Core Action} (hlooks : c.1.Looks)
    (hstop : c.1.Stops s .notFound c.2) : s.Misses c :=
  ⟨c, .refl, hlooks, hstop⟩

theorem Misses.after {c c' : Call × Rec Core Action} (h : s.Invokes c c') (hmiss : s.Misses c') :
    s.Misses c := by
  obtain ⟨c'', hvisits, hlooks, hstop⟩ := hmiss
  exact ⟨c'', .head h hvisits, hlooks, hstop⟩

/-! ## From a stopped run to a lookup -/

theorem chooseNode_misses
    (h : s.chooseNode table r.cur.task r.cur.sim given = .error .notFound) :
    s.Misses (.chooseNode table given, r) := by
  obtain ⟨k, hk, hfirst⟩ := chooseNode_asks (s := s) table r.cur.task r.cur.sim given
  rw [hk] at h
  rcases Avoids.cases_bind h with htype | ⟨type, htype, h⟩
  · unfold chosenType at htype
    split at htype
    case isTrue => cases htype
    case isFalse hprio =>
      exact .after (.chooseType (eq_false_of_ne_true hprio)) (.here trivial htype)
  · obtain ⟨u, hne, h⟩ := Avoids.of_bind h
    replace hne := assert_ok.mp hne
    rcases Avoids.cases_bind h with hpart | ⟨part, -, h⟩
    · exact .after (.chooseOn htype hne) (.here trivial hpart)
    · obtain ⟨a, ha⟩ := hfirst type hne
      rw [ha] at h
      cases h

theorem splitGiven_misses {a : Addr} (h : s.splitGiven table a given r = .error .notFound) :
    s.Misses (.splitGiven table a given, r) := by
  unfold splitGiven at h
  rw [getTask_then] at h
  obtain ⟨n, hn, h⟩ := of_getNode h
  rcases of_query h with hest | ⟨est, hest, h⟩
  · exact .after (.splitEstimate hn) (.here trivial hest)
  · cases est with
    | nil => cases h
    | cons first rest =>
        dsimp only at h
        rcases ht : first.vTaskList with _ | ⟨t, _ | ⟨t', ts⟩⟩
        · rw [ht] at h
          cases h
        · rw [ht] at h
          dsimp only at h
          split at h
          · obtain ⟨gpu, r1, -, h⟩ := Prog.Avoids.of_bind h
            cases h
          · cases h
        · rw [ht] at h
          cases h

theorem saturateLoop_misses {fuel : Nat}
    (h : s.saturateLoop table fuel given r = .error .notFound) :
    s.Misses (.saturateLoop table fuel given, r) := by
  induction fuel generalizing given r with
  | zero => cases h
  | succ fuel ih =>
      unfold saturateLoop at h
      rw [getTask_then] at h
      split at h
      case isTrue => cases h
      case isFalse hcond =>
        rw [getSim_then] at h
        rcases of_query h with ha | ⟨a, ha, h⟩
        · exact .after (.saturateChoose hcond) (chooseNode_misses ha)
        rcases Prog.bind_error h with hbatch | ⟨⟨batch, given'⟩, r1, hbatch, h⟩
        · unfold saturateBatch at hbatch
          obtain ⟨n, hn, hbatch⟩ := of_getNode hbatch
          split at hbatch
          case isTrue hwhole =>
            exact .after (.saturateSplit hcond ha hn hwhole) (splitGiven_misses hbatch)
          case isFalse =>
            rw [getTask_then, getSim_then] at hbatch
            obtain ⟨found, -, hbatch⟩ := of_query_found hbatch
            cases hbatch
        · dsimp only at h
          obtain ⟨n, hn, h⟩ := of_getNode h
          rw [getSim_then] at h
          obtain ⟨latency, hlat, h⟩ := of_query_found h
          obtain ⟨period, hperiod, h⟩ := of_query_found h
          obtain ⟨hne, rfl⟩ := fdiv_ok.mp hperiod
          split at h
          case isTrue => cases h
          case isFalse hroom =>
            obtain ⟨placed, r2, hplace, h⟩ := Prog.Avoids.of_bind h
            cases placed with
            | none => cases h
            | some u =>
                exact .after (.saturateRest hcond ha hbatch hn hlat hne hroom hplace) (ih h)

theorem residueLoop_misses {fuel : Nat}
    (h : s.residueLoop table fuel given r = .error .notFound) :
    s.Misses (.residueLoop table fuel given, r) := by
  induction fuel generalizing given r with
  | zero => cases h
  | succ fuel ih =>
      unfold residueLoop at h
      rw [getTask_then] at h
      split at h
      case isTrue => cases h
      case isFalse hrate =>
        split at h
        case isTrue => cases h
        case isFalse hne =>
          rw [getSim_then] at h
          rcases of_query h with ha | ⟨a, ha, h⟩
          · exact .after (.residueChoose hrate hne) (chooseNode_misses ha)
          rcases Prog.bind_error h with hsplit | ⟨given', r1, hsplit, h⟩
          · unfold splitResidue at hsplit
            obtain ⟨n, hn, hsplit⟩ := of_getNode hsplit
            split at hsplit
            case isTrue hwhole =>
              rcases Prog.bind_error hsplit with hsplit | ⟨x, r1, -, hsplit⟩
              · exact .after (.residueSplit hrate hne ha hn hwhole) (splitGiven_misses hsplit)
              · cases hsplit
            case isFalse => cases hsplit
          · obtain ⟨placed, r2, hplace, h⟩ := Prog.Avoids.of_bind h
            cases placed with
            | none => cases h
            | some u => exact .after (.residueRest hrate hne ha hsplit hplace) (ih h)

theorem readjust_misses (h : s.readjust table given r = .error .notFound) :
    s.Misses (.readjust table given, r) := by
  obtain ⟨k, hk, hrest, honly⟩ := readjust_then (s := s) (r := r) table given
  rcases Prog.bind_error (hk.symm.trans h) with hsat | ⟨ending, r1, hsat, hend⟩
  · exact .after .saturate (saturateLoop_misses hsat)
  · obtain ⟨given', rfl⟩ := honly _ _ _ hend
    rw [hrest] at hend
    exact .after (.residue hsat) (residueLoop_misses hend)

theorem adjustAndShare_misses {tsNodes : List Addr}
    (h : s.adjustAndShare table given tsNodes r = .error .notFound) :
    s.Misses (.adjustAndShare table given tsNodes, r) := by
  unfold adjustAndShare at h
  rcases Prog.bind_error h with hre | ⟨ret, r1, hre, h⟩
  · exact .after .adjust (readjust_misses hre)
  rcases Prog.bind_error h with hmerge | ⟨ret', r2, hmerge, h⟩
  · exact .after (.merge hre) (.here trivial hmerge)
  · cases ret' with
    | success => cases h
    | failure =>
        dsimp only at h
        split at h
        · cases h
        · exact absurd h (allocateTimeShare_found.ne r2)

theorem addModeltoSchedule_misses {t : Task}
    (h : s.addModeltoSchedule table t r = .error .notFound) :
    s.Misses (.addModeltoSchedule table t, r) := by
  unfold addModeltoSchedule at h
  rw [act_then, getTask_then] at h
  replace h := (getSim_then _).symm.trans h
  split at h
  case isTrue hsched =>
    obtain ⟨⟨targets, tsTargets⟩, r1, hforget, h⟩ := Prog.Avoids.of_bind h
    exact .after (.adjustForgotten hsched hforget) (adjustAndShare_misses h)
  case isFalse hsched =>
    replace hsched := eq_false_of_ne_true hsched
    rcases of_query h with hest | ⟨est, hest, h⟩
    · rcases Avoids.cases_bind hest with htype | ⟨type, htype, hest⟩
      · exact .after (.estimateType hsched) (.here trivial htype)
      · exact .after (.estimateOn hsched htype) (.here trivial hest)
    · dsimp only at h
      obtain ⟨fit, hfit, h⟩ := of_query_found h
      cases fit with
      | failure => exact .after (.adjustUnfit hsched hest hfit) (adjustAndShare_misses h)
      | success =>
          obtain ⟨ret, r1, halloc, h⟩ := Prog.Avoids.of_bind h
          cases ret with
          | success => cases h
          | failure =>
              exact .after (.adjustMisfit hsched hest hfit halloc) (adjustAndShare_misses h)

theorem placeTasks_misses {ts : List Task} (h : s.placeTasks table ts r = .error .notFound) :
    s.Misses (.placeTasks table ts, r) := by
  induction ts generalizing table r with
  | nil => cases h
  | cons t ts ih =>
      unfold placeTasks at h
      obtain ⟨table', htable, h⟩ := of_query_found (q := s.tableFor table t) h
      rcases Prog.bind_error h with hadd | ⟨ret, r1, hadd, h⟩
      · exact .after (.add htable) (addModeltoSchedule_misses hadd)
      · cases ret with
        | failure => cases h
        | success => exact .after (.placeRest htable hadd) (ih h)

theorem elasticPartitioning_misses {session : List Task}
    (h : s.elasticPartitioning table session r = .error .notFound) :
    s.Misses (.elasticPartitioning table session, r) := by
  unfold elasticPartitioning at h
  dsimp only at h
  rw [act_then] at h
  rcases Prog.bind_error h with hplace | ⟨x, r1, -, h⟩
  · exact .after .place (placeTasks_misses hplace)
  · cases h

theorem passLoop_misses {fuel : Nat} {flagged : List Int} {session : List Task}
    (h : s.passLoop fuel table flagged session r = .error .notFound) :
    s.Misses (.passLoop fuel table flagged session, r) := by
  induction fuel generalizing table flagged session r with
  | zero => cases h
  | succ fuel ih =>
      unfold passLoop at h
      rcases Prog.bind_error h with hpass | ⟨⟨ret, sorted, table'⟩, r1, hpass, h⟩
      · exact .after .pass (elasticPartitioning_misses hpass)
      · cases ret with
        | failure => cases h
        | success =>
            dsimp only at h
            split at h
            case isTrue hint =>
              rw [getSim_then] at h
              rcases hagain : retryTasks (fallsShort session r1.cur.sim) (orgRate session) flagged
                sorted with _ | _ | ⟨t, again⟩ <;> rw [hagain] at h
              case none => cases h
              case some.nil => cases h
              case some.cons => exact .after (.passAgain hpass hint hagain) (ih h)
            case isFalse => cases h

/-- **A failing lookup is found.** A call that stops with `notFound` leads to a
call of `getMinPartSum`, `estimateTrp`, `getMaxReturnPart` or `mergeResidue`
that does. -/
theorem incrementalScehduling_misses {session : List Task}
    (h : s.incrementalScehduling table session r = .error .notFound) :
    s.Misses (.incrementalScehduling table session, r) := by
  unfold incrementalScehduling at h
  rw [getSim_then] at h
  dsimp only at h
  split at h
  case isTrue hdev => exact .after (.passesOnNew hdev) (passLoop_misses h)
  case isFalse hdev => exact .after (.passes hdev) (passLoop_misses h)

end Scheduler

end Glet
