import Glet.Machine
import Glet.Pool
import Mathlib.Logic.Function.Basic

/-!
# Loading and unloading threads

In each epoch the scheduler thread first waits, proxy by proxy, until
`isLoading` is false (`applyRouting_sync`), then starts a thread for each proxy
that has models to unload (`unloadModels`), and then one for each proxy that
has models to load (`additionalLoad`). The threads are detached.

`isUnloading` is set by the scheduler when it starts the thread. `isLoading` is
set by the thread itself, which then waits until `isUnloading` is false. The two
kinds of threads exclude each other if the scheduler finds no load thread that
has not started yet when it looks at `isLoading`, and does not start an unload
thread while there is one: the first to finish clears `isUnloading` for both.
-/

namespace Glet.LoadUnload

/-! ## State -/

/-- Where a thread of `loadModel_sync_wrapper` is. -/
inductive LoadPc where
  /-- Has been created. -/
  | spawned
  /-- Has set `isLoading` and waits for `isUnloading`. -/
  | waiting
  /-- Is past the wait. -/
  | loading
  | done
  deriving DecidableEq

/-- Where a thread of `unloadModel_async` is. -/
inductive UnloadPc where
  /-- Has been created. -/
  | spawned
  /-- Has started. -/
  | unloading
  /-- Has cleared `isUnloading`. -/
  | done
  deriving DecidableEq

/-- Where the scheduler thread is. -/
inductive Scheduler (P : Type) where
  | idle
  /-- In the loop of `applyRouting_sync`, with the proxies it has not passed. -/
  | routing (todo : List P)
  /-- In `unloadModels`. -/
  | unloading
  /-- In `additionalLoad`, with the proxies of the nodes it has seen. -/
  | loading (seen : List P)

structure State (P : Type) where
  proxies : List P
  isLoading : P → Bool
  isUnloading : P → Bool
  scheduler : Scheduler P
  loads : List (P × LoadPc)
  unloads : List (P × UnloadPc)

def start {P : Type} (proxies : List P) : State P where
  proxies := proxies
  isLoading := fun _ => false
  isUnloading := fun _ => false
  scheduler := .idle
  loads := []
  unloads := []

variable {P : Type} [DecidableEq P]

namespace State

/-- The load threads of a proxy at a place. -/
def nLoads (s : State P) (pc : LoadPc) (p : P) : Nat := Pool.count (fun l => decide (l = (p, pc))) s.loads

/-- The unload threads of a proxy that have not cleared `isUnloading`. -/
def nUnloads (s : State P) (p : P) : Nat :=
  Pool.count (fun u => decide (u = (p, .spawned)) || decide (u = (p, .unloading))) s.unloads

end State

/-! ## Steps -/

inductive Act (P : Type) where
  | beginEpoch
  /-- `applyRouting_sync` passes a proxy. -/
  | route
  | endRouting
  /-- `unloadModels` starts a thread. -/
  | spawnUnload (p : P)
  | endUnloading
  /-- `additionalLoad` starts a thread. -/
  | spawnLoad (p : P)
  | endEpoch
  | startLoad (i : Nat)
  | passWait (i : Nat)
  | finishLoad (i : Nat)
  | startUnload (j : Nat)
  | finishUnload (j : Nat)

def step : Act P → State P → Option (State P)
  | .beginEpoch, s =>
      match s.scheduler with
      | .idle => some { s with scheduler := .routing s.proxies }
      | _ => none
  | .route, s =>
      match s.scheduler with
      | .routing (p :: todo) =>
          if s.isLoading p = true then none else some { s with scheduler := .routing todo }
      | _ => none
  | .endRouting, s =>
      match s.scheduler with
      | .routing [] => some { s with scheduler := .unloading }
      | _ => none
  | .spawnUnload p, s =>
      match s.scheduler with
      | .unloading =>
          if p ∈ s.proxies then
            some { s with
              isUnloading := Function.update s.isUnloading p true
              unloads := s.unloads ++ [(p, .spawned)] }
          else none
      | _ => none
  | .endUnloading, s =>
      match s.scheduler with
      | .unloading => some { s with scheduler := .loading [] }
      | _ => none
  | .spawnLoad p, s =>
      match s.scheduler with
      | .loading seen =>
          if p ∈ s.proxies ∧ p ∉ seen then
            some { s with scheduler := .loading (p :: seen), loads := s.loads ++ [(p, .spawned)] }
          else none
      | _ => none
  | .endEpoch, s =>
      match s.scheduler with
      | .loading _ => some { s with scheduler := .idle }
      | _ => none
  | .startLoad i, s =>
      match s.loads[i]? with
      | some (p, .spawned) =>
          some { s with
            isLoading := Function.update s.isLoading p true
            loads := s.loads.set i (p, .waiting) }
      | _ => none
  | .passWait i, s =>
      match s.loads[i]? with
      | some (p, .waiting) =>
          if s.isUnloading p = true then none else some { s with loads := s.loads.set i (p, .loading) }
      | _ => none
  | .finishLoad i, s =>
      match s.loads[i]? with
      | some (p, .loading) =>
          some { s with
            isLoading := Function.update s.isLoading p false
            loads := s.loads.set i (p, .done) }
      | _ => none
  | .startUnload j, s =>
      match s.unloads[j]? with
      | some (p, .spawned) => some { s with unloads := s.unloads.set j (p, .unloading) }
      | _ => none
  | .finishUnload j, s =>
      match s.unloads[j]? with
      | some (p, .unloading) =>
          some { s with
            isUnloading := Function.update s.isUnloading p false
            unloads := s.unloads.set j (p, .done) }
      | _ => none

/-- No proxy is loaded by one thread and unloaded by another. -/
def NoOverlap (s : State P) : Prop :=
  ∀ p, (p, LoadPc.loading) ∈ s.loads → (p, UnloadPc.unloading) ∉ s.unloads

/-- The proxy that `applyRouting_sync` waits for. -/
def Scheduler.waitsFor : Scheduler P → Option P
  | .routing (p :: _) => some p
  | _ => none

/-- When `applyRouting_sync` passes a proxy, every load thread of the proxy has
started, and when `unloadModels` starts a thread for a proxy, the earlier ones
have finished. -/
def Timely (s : State P) : Act P → Prop
  | .route => ∀ p ∈ s.scheduler.waitsFor, (p, LoadPc.spawned) ∉ s.loads
  | .spawnUnload p => ∀ u ∈ s.unloads, u.1 = p → u.2 = .done
  | _ => True

instance (s : State P) (a : Act P) : Decidable (Timely s a) := by
  unfold Timely
  split <;> infer_instance

/-! ## Exclusion -/

/-- The scheduler has passed the proxy in this epoch and not yet come to load
its models. -/
def Scheduler.Passed (p : P) : Scheduler P → Prop
  | .idle => False
  | .routing todo => p ∉ todo
  | .unloading => True
  | .loading seen => p ∉ seen

namespace State

/-- The load threads of a proxy that have set `isLoading` and not cleared it. -/
def nActive (s : State P) (p : P) : Nat := s.nLoads .waiting p + s.nLoads .loading p

/-- The load threads of a proxy that have not finished. -/
def nUnfinished (s : State P) (p : P) : Nat := s.nLoads .spawned p + s.nActive p

end State

/-- The flags of a proxy count its threads, and it has no load thread past the
wait together with an unload thread. -/
structure Excl (s : State P) (p : P) : Prop where
  loading : (s.isLoading p).toNat = s.nActive p
  one : s.nUnfinished p ≤ 1
  unloading : (s.isUnloading p).toNat = s.nUnloads p
  apart : s.nLoads .loading p + s.nUnloads p ≤ 1
  passed : s.scheduler.Passed p → s.nUnfinished p = 0
  known : p ∉ s.proxies → s.nUnfinished p = 0

variable {s s' : State P} {p : P}

theorem excl_start (proxies : List P) (p : P) : Excl (start proxies) p := by
  constructor <;> intros <;> simp [start, State.nActive, State.nUnfinished, State.nLoads, State.nUnloads]

theorem Excl.noOverlap (h : Excl s p) (hload : (p, LoadPc.loading) ∈ s.loads) :
    (p, UnloadPc.unloading) ∉ s.unloads := by
  intro hunload
  have hloads : 0 < s.nLoads .loading p := Pool.count_pos hload (by simp)
  have hunloads : 0 < s.nUnloads p := Pool.count_pos hunload (by simp)
  have := h.apart
  omega

/-- What the move of a load thread does to the number of threads at a place. -/
theorem nLoads_set {i : Nat} {q : P} {pc : LoadPc} (hi : s.loads[i]? = some (q, pc)) (pc' k : LoadPc)
    (p : P) (hloads : s'.loads = s.loads.set i (q, pc')) :
    s'.nLoads k p + (decide (q = p ∧ pc = k)).toNat =
      s.nLoads k p + (decide (q = p ∧ pc' = k)).toNat := by
  have hcount := Pool.count_set (fun l => decide (l = (p, k))) hi (q, pc')
  simp only [Prod.mk.injEq] at hcount
  rw [State.nLoads, hloads]
  exact hcount

theorem nUnloads_set {j : Nat} {q : P} {pc : UnloadPc} (hj : s.unloads[j]? = some (q, pc))
    (pc' : UnloadPc) (p : P) (hunloads : s'.unloads = s.unloads.set j (q, pc')) :
    s'.nUnloads p + (decide (q = p ∧ pc ≠ .done)).toNat =
      s.nUnloads p + (decide (q = p ∧ pc' ≠ .done)).toNat := by
  have hcount := Pool.count_set
    (fun u => decide (u = (p, UnloadPc.spawned)) || decide (u = (p, .unloading))) hj (q, pc')
  have hpc : ∀ k : UnloadPc, (decide ((q, k) = (p, .spawned)) || decide ((q, k) = (p, .unloading))) =
      decide (q = p ∧ k ≠ .done) := by
    intro k
    cases k <;> simp
  rw [hpc, hpc] at hcount
  rw [State.nUnloads, hunloads]
  exact hcount

/-- Only the scheduler moves. -/
theorem Excl.scheduler (h : Excl s p) {scheduler : Scheduler P}
    (hpassed : scheduler.Passed p → s.nUnfinished p = 0) :
    Excl { s with scheduler := scheduler } p :=
  ⟨h.loading, h.one, h.unloading, h.apart, hpassed, h.known⟩

/-- The moves of a load thread. -/
inductive LoadPc.Next : LoadPc → LoadPc → Prop where
  | start : Next .spawned .waiting
  | pass : Next .waiting .loading
  | finish : Next .loading .done

/-- A load thread moves, and `isLoading` of its proxy with it. -/
theorem Excl.load (h : Excl s p) {i : Nat} {q : P} {pc pc' : LoadPc}
    (hi : s.loads[i]? = some (q, pc)) (hnext : pc.Next pc')
    (hloads : s'.loads = s.loads.set i (q, pc')) (hunloads : s'.unloads = s.unloads)
    (hunloading : s'.isUnloading = s.isUnloading) (hscheduler : s'.scheduler = s.scheduler)
    (hproxies : s'.proxies = s.proxies)
    (hflag : s'.isLoading p = if q = p then decide (pc' ≠ .done) else s.isLoading p)
    (hwait : pc' = .loading → s.isUnloading q = false) : Excl s' p := by
  have hn : s'.nUnloads p = s.nUnloads p := by
    rw [State.nUnloads, hunloads]
    rfl
  have h0 := nLoads_set hi pc' .spawned p hloads
  have h1 := nLoads_set hi pc' .waiting p hloads
  have h2 := nLoads_set hi pc' .loading p hloads
  obtain ⟨hload, hone, hunload, hapart, hpassed, hknown⟩ := h
  by_cases hq : q = p
  · subst hq
    rw [if_pos rfl] at hflag
    obtain ⟨hle, hload', hapart'⟩ : s'.nUnfinished q ≤ s.nUnfinished q ∧
        (s'.isLoading q).toNat = s'.nActive q ∧ s'.nLoads .loading q + s.nUnloads q ≤ 1 := by
      simp only [State.nUnfinished, State.nActive] at hload hone ⊢
      cases hnext with
      | start =>
          simp at h0 h1 h2 hflag
          simp only [hflag, Bool.toNat_true]
          omega
      | pass =>
          rw [hwait rfl, Bool.toNat_false] at hunload
          simp at h0 h1 h2 hflag
          simp only [hflag, Bool.toNat_true]
          omega
      | finish =>
          simp at h0 h1 h2 hflag
          simp only [hflag, Bool.toNat_false]
          omega
    refine ⟨hload', Nat.le_trans hle hone, ?_, ?_, ?_, ?_⟩
    · rw [hunloading, hn]
      exact hunload
    · rw [hn]
      exact hapart'
    · rw [hscheduler]
      intro hp
      have := hpassed hp
      omega
    · rw [hproxies]
      intro hp
      have := hknown hp
      omega
  · rw [if_neg hq] at hflag
    simp only [hq, false_and, decide_false, Bool.toNat_false, Nat.add_zero] at h0 h1 h2
    constructor <;> simp only [State.nUnfinished, State.nActive, hn, hunloading, hscheduler, hproxies,
      hflag, h0, h1, h2] <;> assumption

/-- An unload thread moves, and `isUnloading` of its proxy with it. -/
theorem Excl.unload (h : Excl s p) {unloads : List (P × UnloadPc)} {isUnloading : P → Bool}
    (hflag : (isUnloading p).toNat =
      State.nUnloads { s with isUnloading := isUnloading, unloads := unloads } p)
    (hapart : State.nUnloads { s with isUnloading := isUnloading, unloads := unloads } p ≤ s.nUnloads p ∨
      s.nUnfinished p = 0) :
    Excl { s with isUnloading := isUnloading, unloads := unloads } p := by
  have hone : (isUnloading p).toNat ≤ 1 := Bool.toNat_le _
  have hold := h.apart
  have hloads : s.nLoads .loading p ≤ s.nUnfinished p := by
    simp only [State.nUnfinished, State.nActive]
    omega
  refine ⟨h.loading, h.one, hflag, ?_, h.passed, h.known⟩
  change s.nLoads .loading p + _ ≤ 1
  omega

theorem Excl.step {a : Act P} (h : ∀ p, Excl s p) (htimely : Timely s a)
    (hstep : step a s = some s') (p : P) : Excl s' p := by
  cases a <;> simp only [LoadUnload.step] at hstep
  case beginEpoch =>
    split at hstep <;> cases hstep
    exact (h p).scheduler (h p).known
  case route =>
    split at hstep
    case h_2 => cases hstep
    case h_1 q todo hsched =>
      split at hstep <;> cases hstep
      case isFalse hloading =>
        refine (h p).scheduler fun hpassed => ?_
        by_cases hq : p = q
        · subst hq
          have hspawned : s.nLoads .spawned p = 0 := by
            refine Pool.count_eq_zero.mpr fun l hl => decide_eq_false fun heq => ?_
            exact htimely p (by rw [hsched]; rfl) (heq ▸ hl)
          have hactive := (h p).loading
          rw [Bool.eq_false_iff.mpr hloading] at hactive
          rw [State.nUnfinished, hspawned, ← hactive]
          rfl
        · refine (h p).passed ?_
          rw [hsched]
          exact fun hmem => (List.mem_cons.mp hmem).elim hq hpassed
  case endRouting =>
    split at hstep
    case h_2 => cases hstep
    case h_1 hsched =>
      cases hstep
      refine (h p).scheduler fun _ => (h p).passed ?_
      rw [hsched]
      exact List.not_mem_nil
  case spawnUnload q =>
    split at hstep
    case h_2 => cases hstep
    case h_1 hsched =>
      split at hstep <;> cases hstep
      have hnone : s.nUnfinished p = 0 := (h p).passed (by rw [hsched]; trivial)
      refine (h p).unload ?_ (Or.inr hnone)
      have hold := (h p).unloading
      simp only [State.nUnloads, Pool.count_append, Pool.count_cons, Pool.count_nil] at hold ⊢
      by_cases hq : q = p
      · subst hq
        have hzero : Pool.count (fun u => decide (u = (q, UnloadPc.spawned)) ||
            decide (u = (q, .unloading))) s.unloads = 0 := by
          refine Pool.count_eq_zero.mpr fun u hu => ?_
          have hdone := htimely u hu
          rcases u with ⟨u1, u2⟩
          cases u2 <;> simp_all
        rw [hzero, Function.update_self]
        simp
      · rw [Function.update_of_ne (Ne.symm hq), hold]
        simp [hq]
  case endUnloading =>
    split at hstep
    case h_2 => cases hstep
    case h_1 hsched =>
      cases hstep
      exact (h p).scheduler fun _ => (h p).passed (by rw [hsched]; trivial)
  case spawnLoad q =>
    split at hstep
    case h_2 => cases hstep
    case h_1 seen hsched =>
      split at hstep <;> cases hstep
      case isTrue hcan =>
        have hold := h p
        by_cases hq : q = p
        · subst hq
          have hnone := hold.passed (by rw [hsched]; exact hcan.2)
          have hloading := hold.loading
          have hunloads := hold.unloading
          have hflag : (s.isUnloading q).toNat ≤ 1 := Bool.toNat_le _
          simp only [State.nUnfinished, State.nActive, State.nLoads] at hnone hloading
          refine ⟨?_, ?_, hunloads, ?_, fun hp => (hp List.mem_cons_self).elim,
            fun hp => (hp hcan.1).elim⟩
          · simp [State.nActive, State.nLoads]
            omega
          · simp [State.nUnfinished, State.nActive, State.nLoads]
            omega
          · change Pool.count _ (s.loads ++ [(q, LoadPc.spawned)]) + s.nUnloads q ≤ 1
            simp
            omega
        · have hcount : ∀ k, Pool.count (fun l => decide (l = (p, k))) (s.loads ++ [(q, .spawned)]) =
              Pool.count (fun l => decide (l = (p, k))) s.loads := by
            intro k
            simp [hq]
          obtain ⟨hload, hone, hunload, hapart, hpassed, hknown⟩ := hold
          rw [hsched] at hpassed
          constructor <;> simp only [State.nUnfinished, State.nActive, State.nLoads, hcount]
          · exact hload
          · exact hone
          · exact hunload
          · exact hapart
          · exact fun hp => hpassed fun hmem => hp (List.mem_cons_of_mem _ hmem)
          · exact hknown
  case endEpoch =>
    split at hstep <;> cases hstep
    exact (h p).scheduler fun hpassed => hpassed.elim
  case startLoad i =>
    split at hstep
    case h_2 => cases hstep
    case h_1 q hi =>
      cases hstep
      refine (h p).load hi .start rfl rfl rfl rfl rfl ?_ (fun heq => by cases heq)
      by_cases hq : q = p
      · subst hq
        simp
      · simp [hq, Function.update_of_ne (Ne.symm hq)]
  case passWait i =>
    split at hstep
    case h_2 => cases hstep
    case h_1 q hi =>
      split at hstep <;> cases hstep
      case isFalse hfree =>
        refine (h p).load hi .pass rfl rfl rfl rfl rfl ?_ fun _ => Bool.eq_false_iff.mpr hfree
        by_cases hq : q = p
        · subst hq
          have hpos : 0 < s.nLoads .waiting q :=
            Pool.count_pos (List.mem_of_getElem? hi) (decide_eq_true rfl)
          have hflag := (h q).loading
          rw [State.nActive] at hflag
          cases hset : s.isLoading q with
          | true => simp
          | false =>
              rw [hset, Bool.toNat_false] at hflag
              omega
        · simp [hq]
  case finishLoad i =>
    split at hstep
    case h_2 => cases hstep
    case h_1 q hi =>
      cases hstep
      refine (h p).load hi .finish rfl rfl rfl rfl rfl ?_ (fun heq => by cases heq)
      by_cases hq : q = p
      · subst hq
        simp
      · simp [hq, Function.update_of_ne (Ne.symm hq)]
  case startUnload j =>
    split at hstep
    case h_2 => cases hstep
    case h_1 q hj =>
      cases hstep
      have hcount : State.nUnloads { s with unloads := s.unloads.set j (q, .unloading) } p + _ =
        s.nUnloads p + _ := nUnloads_set hj .unloading p rfl
      simp only [ne_eq, reduceCtorEq, not_false_eq_true, and_true] at hcount
      have hsame := Nat.add_right_cancel hcount
      refine (h p).unload ?_ (Or.inl (Nat.le_of_eq hsame))
      rw [hsame]
      exact (h p).unloading
  case finishUnload j =>
    split at hstep
    case h_2 => cases hstep
    case h_1 q hj =>
      cases hstep
      have hcount : State.nUnloads { s with
          isUnloading := Function.update s.isUnloading q false
          unloads := s.unloads.set j (q, .done) } p + _ = s.nUnloads p + _ :=
        nUnloads_set hj .done p rfl
      have hold := (h p).unloading
      have hflag : (s.isUnloading p).toNat ≤ 1 := Bool.toNat_le _
      by_cases hq : q = p
      · subst hq
        simp at hcount
        refine (h q).unload ?_ (Or.inl (by omega))
        rw [Function.update_self, Bool.toNat_false]
        omega
      · simp [hq] at hcount
        refine (h p).unload ?_ (Or.inl (Nat.le_of_eq hcount))
        rw [Function.update_of_ne (Ne.symm hq), hcount]
        exact hold

/-- In every run in which the scheduler passes a proxy only after its load
threads have started, and starts an unload thread only after the earlier ones of
the proxy have finished, loading and unloading do not overlap. -/
theorem no_overlap {acts : List (Act P)} {proxies : List P}
    (hrun : Machine.run step acts (start proxies) = some s)
    (htimely : Machine.Along step Timely acts (start proxies)) : NoOverlap s := by
  have h := Machine.run_along (I := fun s => ∀ p, Excl s p)
    (fun _ _ _ hI hC hs => Excl.step hI hC hs) htimely hrun (excl_start proxies)
  exact fun p hload => (h p).noOverlap hload

/-- A load thread waits for the unload thread of its proxy. -/
theorem no_overlap_waiting :
    ∃ s, Machine.run step [.beginEpoch, .route, .endRouting, .spawnUnload 0, .endUnloading,
        .spawnLoad 0, .endEpoch, .startLoad 0, .startUnload 0, .beginEpoch]
        (start [(0 : Nat)]) = some s ∧ s.loads = [(0, .waiting)] ∧ s.unloads = [(0, .unloading)] ∧
      step (.passWait 0) s = none ∧ NoOverlap s := by
  have hrun : Machine.run step [.beginEpoch, .route, .endRouting, .spawnUnload 0, .endUnloading,
      .spawnLoad 0, .endEpoch, .startLoad 0, .startUnload 0, .beginEpoch] (start [(0 : Nat)]) =
      some _ := rfl
  exact ⟨_, hrun, rfl, rfl, rfl, no_overlap hrun (by decide)⟩

/-- The load thread of the last epoch starts after the scheduler has looked at
`isLoading` and before it starts the unload thread. -/
theorem late_load_overlaps :
    ∃ s, Machine.run step [.beginEpoch, .route, .endRouting, .endUnloading, .spawnLoad 0, .endEpoch,
        .beginEpoch, .route, .startLoad 0, .passWait 0, .endRouting, .spawnUnload 0, .startUnload 0]
        (start [(0 : Nat)]) = some s ∧ s.loads = [(0, .loading)] ∧ s.unloads = [(0, .unloading)] ∧
      ¬ NoOverlap s := by
  refine ⟨_, rfl, rfl, rfl, fun h => ?_⟩
  exact h 0 (List.mem_singleton.mpr rfl) (List.mem_singleton.mpr rfl)

end Glet.LoadUnload
