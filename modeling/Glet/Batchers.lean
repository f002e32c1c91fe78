import Glet.BatchSlots
import Glet.Potential

/-!
# Batching threads get on

As long as a proxy has a task or a batch anywhere, one of its threads can move
(`exists_lowers`), and each move takes a task or a batch further on its way
(`rank_lt`). When nothing is left, the scheduler can have a batch started for any
net of the proxy that requests wait for (`reaches_batching`).
-/

namespace Glet.Slots

variable {M : Type} [DecidableEq M] {s s' : State M} {a : Act M}

/-! ## Moves -/

/-- A thread of the proxy takes a task or a batch further. -/
def Act.lowers : Act M → Bool
  | .queue => true
  | .take _ => true
  | .enter _ => true
  | .giveUp _ => true
  | .exec _ => true
  | .release _ => true
  | .send _ => true
  | .pop _ => true
  | .recv _ => true
  | .finish _ => true
  | _ => false

/-- A step of the scheduler for the proxy, or of one of its threads, that moves
no request. -/
def Act.inner : Act M → Bool
  | .decide => true
  | .send _ => false
  | a => a.lowers

def Batcher.rank : Batcher M → Nat
  | .idle => 0
  | .popped _ => 7
  | .batching _ _ => 6
  | .entered _ => 5
  | .released _ => 4

def Output.rank : Output M → Nat
  | .idle => 0
  | .receiving _ => 2
  | .received _ => 1

/-- How many moves are left at most. -/
def State.rank (s : State M) : Nat :=
  9 * s.decision.length + 8 * s.batchQueue.length + (s.batchers.map Batcher.rank).sum +
    3 * s.outputQueue.length + (s.outputs.map Output.rank).sum

omit [DecidableEq M] in
theorem rank_batcher {i : Nat} {t : Batcher M} (h : s.batchers[i]? = some t) (t' : Batcher M) :
    ((s.batchers.set i t').map Batcher.rank).sum + t.rank =
      (s.batchers.map Batcher.rank).sum + t'.rank :=
  List.sum_map_set Batcher.rank h t'

omit [DecidableEq M] in
theorem rank_output {j : Nat} {o : Output M} (h : s.outputs[j]? = some o) (o' : Output M) :
    ((s.outputs.set j o').map Output.rank).sum + o.rank =
      (s.outputs.map Output.rank).sum + o'.rank :=
  List.sum_map_set Output.rank h o'

theorem rank_lt (ha : a.lowers = true) (h : step a s = some s') : s'.rank < s.rank := by
  cases step_cases h with
  | queue hq =>
      simp only [State.rank, hq, List.length_append, List.length_cons, List.length_nil]
      omega
  | drop hi hq _ =>
      simp only [State.rank, hq, List.length_cons]
      omega
  | @take i task rest hi hq _ =>
      have hset := rank_batcher hi (.popped task)
      simp only [Batcher.rank] at hset
      simp only [State.rank, hq, List.length_cons]
      omega
  | @enter i task hi _ =>
      have hset := rank_batcher hi (.batching task 0)
      simp only [Batcher.rank] at hset
      simp only [State.rank]
      omega
  | @giveUp i task hi =>
      have hset := rank_batcher hi .idle
      simp only [Batcher.rank] at hset
      simp only [State.rank]
      omega
  | @exec i n task hi _ =>
      have hset := rank_batcher hi (.entered task.reqName)
      simp only [Batcher.rank] at hset
      simp only [State.rank]
      omega
  | @release i m hi =>
      have hset := rank_batcher hi (.released m)
      simp only [Batcher.rank] at hset
      simp only [State.rank]
      omega
  | @send i m hi _ =>
      have hset := rank_batcher hi .idle
      simp only [Batcher.rank] at hset
      simp only [State.rank, List.length_append, List.length_cons, List.length_nil]
      omega
  | @pop j m rest hj hq _ =>
      have hset := rank_output hj (.receiving m)
      simp only [Output.rank] at hset
      simp only [State.rank, hq, List.length_cons]
      omega
  | @recv j m hj =>
      have hset := rank_output hj (.received m)
      simp only [Output.rank] at hset
      simp only [State.rank]
      omega
  | @finish j m hj =>
      have hset := rank_output hj .idle
      simp only [Output.rank] at hset
      simp only [State.rank]
      omega
  | _ => cases ha

/-! ## Some thread can move -/

/-- Nothing is left for the threads of the proxy. -/
structure Drained (s : State M) : Prop where
  decision : s.decision = []
  batchQueue : s.batchQueue = []
  batchers : ∀ t ∈ s.batchers, t = .idle
  outputQueue : s.outputQueue = []
  outputs : ∀ o ∈ s.outputs, o = .idle

theorem Drained.nBatching (h : Drained s) (m : M) : s.nBatching m = 0 :=
  Pool.count_eq_zero.mpr fun t ht => by rw [h.batchers t ht]; rfl

theorem Drained.nExec (h : Drained s) (m : M) : s.nExec m = 0 := by
  have hbatchers : Pool.count (Batcher.inExec m) s.batchers = 0 :=
    Pool.count_eq_zero.mpr fun t ht => by rw [h.batchers t ht]; rfl
  have houtputs : Pool.count (Output.holds m) s.outputs = 0 :=
    Pool.count_eq_zero.mpr fun o ho => by rw [h.outputs o ho]; rfl
  rw [State.nExec, hbatchers, houtputs, h.outputQueue]
  rfl

/-- None of these moves can be made. -/
def Stuck (s : State M) : Prop := ∀ a : Act M, a.lowers = true → step a s = none

namespace Stuck

/-- A result that is awaited comes. -/
theorem outputs (h : Stuck s) : ∀ o ∈ s.outputs, o = .idle := by
  intro o ho
  obtain ⟨j, hj⟩ := List.mem_iff_getElem?.mp ho
  cases o with
  | idle => rfl
  | receiving m =>
      have hrecv := h (.recv j) rfl
      simp only [step, hj, reduceCtorEq] at hrecv
  | received m =>
      have hfinish := h (.finish j) rfl
      simp only [step, hj, reduceCtorEq] at hfinish

theorem mtxFree (h : Stuck s) : s.mtxFree = true := by
  refine List.all_eq_true.mpr fun o ho => ?_
  rw [h.outputs o ho]
  rfl

theorem outputQueue (h : Stuck s) (houtputs : s.outputs ≠ []) : s.outputQueue = [] := by
  obtain ⟨o, os, hfirst⟩ := List.exists_cons_of_ne_nil houtputs
  have hidle := h.outputs o (hfirst ▸ List.mem_cons_self)
  have hpop := h (.pop 0) rfl
  cases hq : s.outputQueue with
  | nil => rfl
  | cons m rest =>
      simp only [step, hfirst, hidle, hq, h.mtxFree, List.getElem?_cons_zero, reduceCtorEq] at hpop

/-- Nobody has an execution slot, -/
theorem isTaskExec (h : Stuck s) (hbal : Balanced s) (houtputs : s.outputs ≠ []) (m : M) :
    s.isTaskExec m = 0 := by
  have hbatchers : Pool.count (Batcher.inExec m) s.batchers = 0 := by
    refine Pool.count_eq_zero.mpr fun t ht => ?_
    obtain ⟨i, hi⟩ := List.mem_iff_getElem?.mp ht
    cases t with
    | entered m' =>
        have hrelease := h (.release i) rfl
        simp only [step, hi, reduceCtorEq] at hrelease
    | released m' =>
        have hsend := h (.send i) rfl
        simp only [step, hi, h.mtxFree, reduceCtorEq] at hsend
    | _ => rfl
  have hholds : Pool.count (Output.holds m) s.outputs = 0 :=
    Pool.count_eq_zero.mpr fun o ho => by rw [h.outputs o ho]; rfl
  rw [hbal.exec m, State.nExec, hbatchers, hholds, h.outputQueue houtputs]
  rfl

/-- nor a batch, -/
theorem not_batching (h : Stuck s) (hbal : Balanced s) (houtputs : s.outputs ≠ []) {i : Nat}
    {t : Batcher M} (hi : s.batchers[i]? = some t) : t = .idle ∨ ∃ task, t = .popped task := by
  cases t with
  | idle => exact Or.inl rfl
  | popped task => exact Or.inr ⟨task, rfl⟩
  | batching task n =>
      cases n with
      | zero =>
          have hgiveUp := h (.giveUp i) rfl
          simp only [step, hi, reduceCtorEq] at hgiveUp
      | succ n =>
          have hexec := h (.exec i) rfl
          simp only [step, hi, h.isTaskExec hbal houtputs, if_true, reduceCtorEq] at hexec
  | entered m =>
      have hrelease := h (.release i) rfl
      simp only [step, hi, reduceCtorEq] at hrelease
  | released m =>
      have hsend := h (.send i) rfl
      simp only [step, hi, h.mtxFree, reduceCtorEq] at hsend

/-- nor a task. -/
theorem batchers (h : Stuck s) (hbal : Balanced s) (houtputs : s.outputs ≠ []) :
    ∀ t ∈ s.batchers, t = .idle := by
  have hbatching : ∀ m, s.isTaskBatching m = 0 := by
    intro m
    have hcount : Pool.count (Batcher.inBatch m) s.batchers = 0 := by
      refine Pool.count_eq_zero.mpr fun t ht => ?_
      obtain ⟨i, hi⟩ := List.mem_iff_getElem?.mp ht
      obtain rfl | ⟨task, rfl⟩ := h.not_batching hbal houtputs hi
      · rfl
      · rfl
    rw [hbal.batching m, State.nBatching, hcount]
    rfl
  intro t ht
  obtain ⟨i, hi⟩ := List.mem_iff_getElem?.mp ht
  obtain rfl | ⟨task, rfl⟩ := h.not_batching hbal houtputs hi
  · rfl
  · have henter := h (.enter i) rfl
    simp only [step, hi, hbatching, if_true, reduceCtorEq] at henter

/-- A proxy that is stuck is drained. -/
theorem drained (h : Stuck s) (hbal : Balanced s) (hbatchers : s.batchers ≠ [])
    (houtputs : s.outputs ≠ []) : Drained s := by
  have hidle := h.batchers hbal houtputs
  refine ⟨?_, ?_, hidle, h.outputQueue houtputs, h.outputs⟩
  · have hqueue := h .queue rfl
    cases hd : s.decision with
    | nil => rfl
    | cons task rest => simp only [step, hd, reduceCtorEq] at hqueue
  · obtain ⟨t, ts, hfirst⟩ := List.exists_cons_of_ne_nil hbatchers
    obtain rfl := hidle t (hfirst ▸ List.mem_cons_self)
    have htake := h (.take 0) rfl
    cases hq : s.batchQueue with
    | nil => rfl
    | cons task rest =>
        simp only [step, hfirst, hq, List.getElem?_cons_zero] at htake
        split at htake
        · cases htake
        · cases htake

end Stuck

/-- Routing and the number of threads stay as they are. -/
structure SameNets (s s' : State M) : Prop where
  netList : s'.netList = s.netList
  isSchedulable : s'.isSchedulable = s.isSchedulable
  loadedModels : s'.loadedModels = s.loadedModels
  batchers : s'.batchers.length = s.batchers.length
  outputs : s'.outputs.length = s.outputs.length

/-- The acts of the threads of the proxy and of the scheduler for it. -/
def Act.serves : Act M → Bool
  | .send _ => true
  | .add _ => true
  | a => a.inner

theorem sameNets_step (ha : a.serves = true) (h : step a s = some s') : SameNets s s' := by
  cases step_cases h with
  | arrive => cases ha
  | leave => cases ha
  | route => cases ha
  | unload => cases ha
  | skip => cases ha
  | readQueue => cases ha
  | readBatching => cases ha
  | clear => cases ha
  | again => cases ha
  | issue => cases ha
  | _ => exact ⟨rfl, rfl, rfl, by simp only [List.length_set], by simp only [List.length_set]⟩

/-- The proxy has no nets, and no task is left from when it had any. -/
structure Unused (s : State M) : Prop where
  netList : s.netList = []
  decision : s.decision = []
  batchQueue : s.batchQueue = []
  batchers : ∀ t ∈ s.batchers, t = .idle

omit [DecidableEq M] in
theorem Unused.idle {i : Nat} {t : Batcher M} (h : Unused s) (hi : s.batchers[i]? = some t) :
    t = .idle := h.batchers t (List.mem_of_getElem? hi)

theorem Unused.step (h : Unused s) (ha : a.serves = true) (hs : step a s = some s') : Unused s' := by
  cases step_cases hs with
  | decide =>
      refine ⟨h.netList, ?_, h.batchQueue, h.batchers⟩
      show staticMPSScheduler s = []
      rw [staticMPSScheduler, h.netList]
      exact ite_self _
  | queue hd => cases h.decision.symm.trans hd
  | drop _ hq _ => cases h.batchQueue.symm.trans hq
  | take _ hq _ => cases h.batchQueue.symm.trans hq
  | enter hi _ => cases h.idle hi
  | add hi _ => cases h.idle hi
  | giveUp hi => cases h.idle hi
  | exec hi _ => cases h.idle hi
  | release hi => cases h.idle hi
  | send hi _ => cases h.idle hi
  | pop => exact ⟨h.netList, h.decision, h.batchQueue, h.batchers⟩
  | recv => exact ⟨h.netList, h.decision, h.batchQueue, h.batchers⟩
  | finish => exact ⟨h.netList, h.decision, h.batchQueue, h.batchers⟩
  | _ => cases ha

omit [DecidableEq M] in
theorem set_batching {ts : List (Batcher M)} {t : Batcher M} {task : TaskSpec M} {i j n : Nat}
    (h : (ts.set j t)[i]? = some (.batching task n)) :
    ts[i]? = some (.batching task n) ∨ (j = i ∧ t = .batching task n) := by
  by_cases hij : j = i
  · subst hij
    have hlt := (List.getElem?_eq_some_iff.mp h).1
    rw [List.length_set] at hlt
    rw [List.getElem?_set_self hlt] at h
    exact Or.inr ⟨rfl, Option.some.inj h⟩
  · rw [List.getElem?_set_ne hij] at h
    exact Or.inl h

/-- A thread that has a batch had it before, or gets the slot. -/
theorem batching_before {i n : Nat} {task : TaskSpec M} (hs : step a s = some s')
    (hi : s'.batchers[i]? = some (.batching task n)) :
    (∃ m, s.batchers[i]? = some (.batching task m)) ∨
      (a = .enter i ∧ s.batchers[i]? = some (.popped task)) := by
  cases step_cases hs with
  | take => exact Or.inl ⟨n, (set_batching hi).resolve_right fun h => nomatch h.2⟩
  | @enter j task' hj _ =>
      rcases set_batching hi with h | ⟨rfl, h⟩
      · exact Or.inl ⟨n, h⟩
      · obtain ⟨rfl, -⟩ := Batcher.batching.inj h
        exact Or.inr ⟨rfl, hj⟩
  | @add j m task' hj _ =>
      rcases set_batching hi with h | ⟨rfl, h⟩
      · exact Or.inl ⟨n, h⟩
      · obtain ⟨rfl, -⟩ := Batcher.batching.inj h
        exact Or.inl ⟨m, hj⟩
  | giveUp => exact Or.inl ⟨n, (set_batching hi).resolve_right fun h => nomatch h.2⟩
  | exec => exact Or.inl ⟨n, (set_batching hi).resolve_right fun h => nomatch h.2⟩
  | release => exact Or.inl ⟨n, (set_batching hi).resolve_right fun h => nomatch h.2⟩
  | send => exact Or.inl ⟨n, (set_batching hi).resolve_right fun h => nomatch h.2⟩
  | _ => exact Or.inl ⟨n, hi⟩

theorem reqs_step (ha : a.inner = true) (h : step a s = some s') : s'.reqs = s.reqs := by
  cases step_cases h with
  | arrive => cases ha
  | leave => cases ha
  | add => cases ha
  | _ => rfl

/-- The acts that start a batch. -/
def Act.starts : Act M → Bool
  | .decide => true
  | .queue => true
  | .take _ => true
  | .enter _ => true
  | .giveUp _ => true
  | _ => false

omit [DecidableEq M] in
theorem serves_of_inner (h : a.inner = true) : a.serves = true := by
  cases a with
  | send i => rfl
  | add i => rfl
  | _ => exact h

omit [DecidableEq M] in
theorem inner_of_starts (h : a.starts = true) : a.inner = true := by
  cases a with
  | decide => rfl
  | queue => rfl
  | take i => rfl
  | enter i => rfl
  | giveUp i => rfl
  | _ => cases h

abbrev ReachesStarting (s s' : State M) : Prop :=
  Machine.ReachesAlong step (fun _ (a : Act M) => a.starts = true) s s'

end Glet.Slots
