import Glet.Machine
import Glet.Pool
import Mathlib.Logic.Function.Basic

/-!
# The batching and execution slots of a proxy

The batching threads of a proxy take the tasks that the scheduler queued for
it. For each model at most one of them puts a batch together and at most one
batch is executed: a thread waits until `isTaskBatching` of the model is 0 and
increments it, and before it gives this slot back it waits for `isTaskExec` in
the same way. The output threads give the execution slot back when the result
has come.

`unloadModel_async` reads the length of the task queue and the two counters, one
after the other, and unloads the model when all three were 0.

A wait for a counter and the increment after it happen under the model's mutex
and are one step, as is every other critical section.
-/

namespace Glet.Slots

/-! ## State -/

/-- A task for the proxy: the model and the batch size. -/
structure TaskSpec (M : Type) where
  reqName : M
  batchSize : Nat

/-- Where a thread is in the loop of `initProxy`. -/
inductive Batcher (M : Type) where
  /-- Waits for a task. -/
  | idle
  /-- Has taken a task from the queue and waits for `isTaskBatching`. -/
  | popped (task : TaskSpec M)
  /-- Has the batching slot and `n` requests. -/
  | batching (task : TaskSpec M) (n : Nat)
  /-- Has both slots. -/
  | entered (m : M)
  /-- Has given the batching slot back and is about to call `sendBatchedRequest`. -/
  | released (m : M)

/-- Where a thread is in the loop of `initOutput`. -/
inductive Output (M : Type) where
  | idle
  /-- In `recvResult`, with `PerProxyOutputMtx`. -/
  | receiving (m : M)
  /-- Has the result of a batch. -/
  | received (m : M)

/-- Where `unloadModel_async` is, with the models it has still to look at. -/
inductive Unloader (M : Type) where
  | notStarted
  | scanning (todo : List M)
  /-- Has read the length of the queue; `clear` is `is_task_cleared`. -/
  | sawQueue (m : M) (clear : Bool) (todo : List M)
  /-- Has read `isTaskBatching`. -/
  | sawBatching (m : M) (clear : Bool) (todo : List M)
  /-- Leaves the loop over the three reads for `makeProxyUnloadModel`. -/
  | cleared (m : M) (todo : List M)

structure State (M : Type) where
  /-- The lengths of the request queues, which all proxies share. -/
  reqs : M → Nat
  netList : List (M × Nat)
  isSchedulable : Bool
  loadedModels : List M
  /-- What the scheduler has decided and not yet queued. -/
  decision : List (TaskSpec M)
  batchQueue : List (TaskSpec M)
  isTaskBatching : M → Int
  isTaskExec : M → Int
  batchers : List (Batcher M)
  outputQueue : List M
  outputs : List (Output M)
  unloader : Unloader M
  exempting : List M
  /-- The models for which `makeProxyUnloadModel` was called. -/
  unloaded : List M

variable {M : Type} [DecidableEq M]

namespace Batcher

/-- Between the wait for `isTaskBatching` of a model and the decrement. -/
def inBatch (m : M) : Batcher M → Bool
  | .batching task _ => task.reqName = m
  | .entered m' => m' = m
  | _ => false

/-- Past the wait for `isTaskExec` of a model, the batch not yet sent. -/
def inExec (m : M) : Batcher M → Bool
  | .entered m' => m' = m
  | .released m' => m' = m
  | _ => false

/-- How far a thread is with a task for a model. -/
def stage (m : M) : Batcher M → Nat
  | .idle => 0
  | .popped task => if task.reqName = m then 1 else 0
  | .batching task _ => if task.reqName = m then 2 else 0
  | .entered m' => if m' = m then 2 else 0
  | .released m' => if m' = m then 3 else 0

end Batcher

/-- Has taken a batch of a model and not yet decremented `isTaskExec`. -/
def Output.holds (m : M) : Output M → Bool
  | .idle => false
  | .receiving m' => m' = m
  | .received m' => m' = m

def Output.hasMtx : Output M → Bool
  | .receiving _ => true
  | _ => false

namespace State

/-- `PerProxyOutputMtx` is free. -/
def mtxFree (s : State M) : Bool := s.outputs.all fun o => !o.hasMtx

/-- The threads between the wait for `isTaskBatching` and the decrement. -/
def nBatching (s : State M) (m : M) : Nat := Pool.count (Batcher.inBatch m) s.batchers

/-- The batches past the wait for `isTaskExec` whose result is not processed. -/
def nExec (s : State M) (m : M) : Nat :=
  Pool.count (Batcher.inExec m) s.batchers + Pool.count (fun m' => decide (m' = m)) s.outputQueue +
    Pool.count (Output.holds m) s.outputs

end State

/-- A proxy with its threads, before anything is scheduled. -/
def start (nBatchers nOutputs : Nat) (reqs : M → Nat) (netList : List (M × Nat))
    (loadedModels : List M) : State M where
  reqs := reqs
  netList := netList
  isSchedulable := true
  loadedModels := loadedModels
  decision := []
  batchQueue := []
  isTaskBatching := fun _ => 0
  isTaskExec := fun _ => 0
  batchers := List.replicate nBatchers .idle
  outputQueue := []
  outputs := List.replicate nOutputs .idle
  unloader := .notStarted
  exempting := []
  unloaded := []

/-! ## Steps -/

inductive Act (M : Type) where
  /-- A request enters the queue of a model. -/
  | arrive (m : M)
  /-- Another proxy takes a request. -/
  | leave (m : M)
  /-- `staticMPSScheduler` for this proxy. -/
  | decide
  /-- The scheduler queues a task it has decided. -/
  | queue
  /-- `applyRouting_sync` for this proxy. -/
  | route (netList : List (M × Nat))
  /-- A batching thread takes a task. -/
  | take (i : Nat)
  /-- A batching thread gets the batching slot. -/
  | enter (i : Nat)
  /-- A batching thread adds a request to its batch. -/
  | add (i : Nat)
  /-- A batching thread has found no request. -/
  | giveUp (i : Nat)
  /-- A batching thread gets the execution slot. -/
  | exec (i : Nat)
  /-- A batching thread gives the batching slot back. -/
  | release (i : Nat)
  /-- `sendBatchedRequest`. -/
  | send (i : Nat)
  /-- An output thread takes a batch. -/
  | pop (j : Nat)
  /-- `recvResult` returns. -/
  | recv (j : Nat)
  /-- An output thread gives the execution slot back. -/
  | finish (j : Nat)
  /-- The thread of `unloadModel_async` starts. -/
  | unload (exempting : List M)
  /-- A model that stays. -/
  | skip
  | readQueue
  | readBatching
  | readExec
  /-- `makeProxyUnloadModel`. -/
  | issue

def bump (f : M → Int) (m : M) (d : Int) : M → Int := Function.update f m (f m + d)

/-- `assign_task` of `staticMPSScheduler`. -/
def assignTask (s : State M) : Bool :=
  s.netList.any fun p => s.isTaskBatching p.1 + s.isTaskExec p.1 < 2 ∧ s.isTaskBatching p.1 = 0 ∧
    0 < s.reqs p.1

/-- The tasks of `staticMPSScheduler` for this proxy. -/
def staticMPSScheduler (s : State M) : List (TaskSpec M) :=
  if s.loadedModels = [] ∨ s.isSchedulable = false ∨ s.batchQueue ≠ [] ∨ assignTask s = false then []
  else (s.netList.filter fun p => 0 < s.reqs p.1).map fun p => ⟨p.1, p.2⟩

def step : Act M → State M → Option (State M)
  | .arrive m, s => some { s with reqs := Function.update s.reqs m (s.reqs m + 1) }
  | .leave m, s => some { s with reqs := Function.update s.reqs m (s.reqs m - 1) }
  | .decide, s => if s.decision = [] then some { s with decision := staticMPSScheduler s } else none
  | .queue, s =>
      match s.decision with
      | [] => none
      | task :: rest => some { s with decision := rest, batchQueue := s.batchQueue ++ [task] }
  | .route netList, s =>
      match s.decision, s.unloader with
      -- the scheduler thread routes before it decides and starts the unloader
      | [], .notStarted => some { s with netList := netList, isSchedulable := !netList.isEmpty }
      | _, _ => none
  | .take i, s =>
      match s.batchers[i]?, s.batchQueue with
      | some .idle, task :: rest =>
          if s.reqs task.reqName = 0 ∨ s.isSchedulable = false then some { s with batchQueue := rest }
          else some { s with batchQueue := rest, batchers := s.batchers.set i (.popped task) }
      | _, _ => none
  | .enter i, s =>
      match s.batchers[i]? with
      | some (.popped task) =>
          if s.isTaskBatching task.reqName = 0 then
            some { s with
              isTaskBatching := bump s.isTaskBatching task.reqName 1
              batchers := s.batchers.set i (.batching task 0) }
          else none
      | _ => none
  | .add i, s =>
      match s.batchers[i]? with
      | some (.batching task n) =>
          if n < task.batchSize ∧ 0 < s.reqs task.reqName then
            some { s with
              reqs := Function.update s.reqs task.reqName (s.reqs task.reqName - 1)
              batchers := s.batchers.set i (.batching task (n + 1)) }
          else none
      | _ => none
  | .giveUp i, s =>
      match s.batchers[i]? with
      | some (.batching task 0) =>
          some { s with
            isTaskBatching := bump s.isTaskBatching task.reqName (-1)
            batchers := s.batchers.set i .idle }
      | _ => none
  | .exec i, s =>
      match s.batchers[i]? with
      | some (.batching task (_ + 1)) =>
          if s.isTaskExec task.reqName = 0 then
            some { s with
              isTaskExec := bump s.isTaskExec task.reqName 1
              batchers := s.batchers.set i (.entered task.reqName) }
          else none
      | _ => none
  | .release i, s =>
      match s.batchers[i]? with
      | some (.entered m) =>
          some { s with
            isTaskBatching := bump s.isTaskBatching m (-1)
            batchers := s.batchers.set i (.released m) }
      | _ => none
  | .send i, s =>
      match s.batchers[i]?, s.mtxFree with
      | some (.released m), true =>
          some { s with outputQueue := s.outputQueue ++ [m], batchers := s.batchers.set i .idle }
      | _, _ => none
  | .pop j, s =>
      match s.outputs[j]?, s.outputQueue, s.mtxFree with
      | some .idle, m :: rest, true =>
          some { s with outputQueue := rest, outputs := s.outputs.set j (.receiving m) }
      | _, _, _ => none
  | .recv j, s =>
      match s.outputs[j]? with
      | some (.receiving m) => some { s with outputs := s.outputs.set j (.received m) }
      | _ => none
  | .finish j, s =>
      match s.outputs[j]? with
      | some (.received m) =>
          some { s with
            isTaskExec := bump s.isTaskExec m (-1)
            outputs := s.outputs.set j .idle }
      | _ => none
  | .unload exempting, s =>
      match s.unloader with
      -- the models that stay are those of the node, which is routed already
      | .notStarted =>
          if ∀ p ∈ s.netList, p.1 ∈ exempting then
            some { s with unloader := .scanning s.loadedModels, exempting := exempting }
          else none
      | _ => none
  | .skip, s =>
      match s.unloader with
      | .scanning (m :: todo) =>
          if m ∈ s.exempting then some { s with unloader := .scanning todo } else none
      | _ => none
  | .readQueue, s =>
      match s.unloader with
      | .scanning (m :: todo) =>
          if m ∈ s.exempting then none
          else some { s with unloader := .sawQueue m (s.batchQueue.length = 0) todo }
      | _ => none
  | .readBatching, s =>
      match s.unloader with
      | .sawQueue m clear todo =>
          some { s with unloader := .sawBatching m (clear && s.isTaskBatching m = 0) todo }
      | _ => none
  | .readExec, s =>
      match s.unloader with
      | .sawBatching m clear todo =>
          if clear = true ∧ s.isTaskExec m = 0 then some { s with unloader := .cleared m todo }
          else some { s with unloader := .scanning (m :: todo) }
      | _ => none
  | .issue, s =>
      match s.unloader with
      | .cleared m todo =>
          some { s with
            unloader := .scanning todo
            loadedModels := s.loadedModels.erase m
            unloaded := s.unloaded ++ [m] }
      | _ => none

/-- What the steps do, and when. -/
inductive Steps (s : State M) : Act M → State M → Prop
  | arrive {m : M} : Steps s (.arrive m) { s with reqs := Function.update s.reqs m (s.reqs m + 1) }
  | leave {m : M} : Steps s (.leave m) { s with reqs := Function.update s.reqs m (s.reqs m - 1) }
  | decide : s.decision = [] → Steps s .decide { s with decision := staticMPSScheduler s }
  | queue {task : TaskSpec M} {rest : List (TaskSpec M)} : s.decision = task :: rest →
      Steps s .queue { s with decision := rest, batchQueue := s.batchQueue ++ [task] }
  | route {netList : List (M × Nat)} : s.decision = [] → s.unloader = .notStarted →
      Steps s (.route netList) { s with netList := netList, isSchedulable := !netList.isEmpty }
  | drop {i : Nat} {task : TaskSpec M} {rest : List (TaskSpec M)} :
      s.batchers[i]? = some .idle → s.batchQueue = task :: rest →
      s.reqs task.reqName = 0 ∨ s.isSchedulable = false →
      Steps s (.take i) { s with batchQueue := rest }
  | take {i : Nat} {task : TaskSpec M} {rest : List (TaskSpec M)} :
      s.batchers[i]? = some .idle → s.batchQueue = task :: rest →
      ¬ (s.reqs task.reqName = 0 ∨ s.isSchedulable = false) →
      Steps s (.take i) { s with
        batchQueue := rest, batchers := s.batchers.set i (.popped task) }
  | enter {i : Nat} {task : TaskSpec M} :
      s.batchers[i]? = some (.popped task) → s.isTaskBatching task.reqName = 0 →
      Steps s (.enter i) { s with
        isTaskBatching := bump s.isTaskBatching task.reqName 1
        batchers := s.batchers.set i (.batching task 0) }
  | add {i n : Nat} {task : TaskSpec M} :
      s.batchers[i]? = some (.batching task n) → n < task.batchSize ∧ 0 < s.reqs task.reqName →
      Steps s (.add i) { s with
        reqs := Function.update s.reqs task.reqName (s.reqs task.reqName - 1)
        batchers := s.batchers.set i (.batching task (n + 1)) }
  | giveUp {i : Nat} {task : TaskSpec M} : s.batchers[i]? = some (.batching task 0) →
      Steps s (.giveUp i) { s with
        isTaskBatching := bump s.isTaskBatching task.reqName (-1)
        batchers := s.batchers.set i .idle }
  | exec {i n : Nat} {task : TaskSpec M} :
      s.batchers[i]? = some (.batching task (n + 1)) → s.isTaskExec task.reqName = 0 →
      Steps s (.exec i) { s with
        isTaskExec := bump s.isTaskExec task.reqName 1
        batchers := s.batchers.set i (.entered task.reqName) }
  | release {i : Nat} {m : M} : s.batchers[i]? = some (.entered m) →
      Steps s (.release i) { s with
        isTaskBatching := bump s.isTaskBatching m (-1)
        batchers := s.batchers.set i (.released m) }
  | send {i : Nat} {m : M} : s.batchers[i]? = some (.released m) → s.mtxFree = true →
      Steps s (.send i) { s with
        outputQueue := s.outputQueue ++ [m], batchers := s.batchers.set i .idle }
  | pop {j : Nat} {m : M} {rest : List M} :
      s.outputs[j]? = some .idle → s.outputQueue = m :: rest → s.mtxFree = true →
      Steps s (.pop j) { s with
        outputQueue := rest, outputs := s.outputs.set j (.receiving m) }
  | recv {j : Nat} {m : M} : s.outputs[j]? = some (.receiving m) →
      Steps s (.recv j) { s with outputs := s.outputs.set j (.received m) }
  | finish {j : Nat} {m : M} : s.outputs[j]? = some (.received m) →
      Steps s (.finish j) { s with
        isTaskExec := bump s.isTaskExec m (-1), outputs := s.outputs.set j .idle }
  | unload {exempting : List M} :
      s.unloader = .notStarted → (∀ p ∈ s.netList, p.1 ∈ exempting) →
      Steps s (.unload exempting) { s with
        unloader := .scanning s.loadedModels, exempting := exempting }
  | skip {m : M} {todo : List M} : s.unloader = .scanning (m :: todo) → m ∈ s.exempting →
      Steps s .skip { s with unloader := .scanning todo }
  | readQueue {m : M} {todo : List M} : s.unloader = .scanning (m :: todo) → m ∉ s.exempting →
      Steps s .readQueue { s with unloader := .sawQueue m (s.batchQueue.length = 0) todo }
  | readBatching {m : M} {clear : Bool} {todo : List M} : s.unloader = .sawQueue m clear todo →
      Steps s .readBatching { s with
        unloader := .sawBatching m (clear && s.isTaskBatching m = 0) todo }
  | clear {m : M} {clear : Bool} {todo : List M} : s.unloader = .sawBatching m clear todo →
      clear = true ∧ s.isTaskExec m = 0 →
      Steps s .readExec { s with unloader := .cleared m todo }
  | again {m : M} {clear : Bool} {todo : List M} : s.unloader = .sawBatching m clear todo →
      ¬ (clear = true ∧ s.isTaskExec m = 0) →
      Steps s .readExec { s with unloader := .scanning (m :: todo) }
  | issue {m : M} {todo : List M} : s.unloader = .cleared m todo →
      Steps s .issue { s with
        unloader := .scanning todo
        loadedModels := s.loadedModels.erase m
        unloaded := s.unloaded ++ [m] }

theorem step_cases {s s' : State M} {a : Act M} (h : step a s = some s') : Steps s a s' := by
  cases a <;> simp only [step] at h <;> repeat' split at h
  all_goals first
    | (cases h; constructor <;> assumption)
    | cases h

/-! ## The counters count -/

theorem bump_apply (f : M → Int) (m : M) (d : Int) (k : M) :
    bump f m d k = f k + if m = k then d else 0 := by
  unfold bump
  by_cases hk : m = k
  · subst hk
    rw [Function.update_self, if_pos rfl]
  · rw [Function.update_of_ne (Ne.symm hk), if_neg hk, Int.add_zero]

/-- A slot that is free can be taken. -/
theorem bump_le {f : M → Int} (h : ∀ k, f k ≤ 1) {m : M} {d : Int} (hd : f m + d ≤ 1) (k : M) :
    bump f m d k ≤ 1 := by
  rw [bump_apply]
  split
  case isTrue heq =>
    subst heq
    exact hd
  case isFalse =>
    have := h k
    omega

/-- Each counter is the number of threads or batches it stands for, and that is
at most one. -/
structure Balanced (s : State M) : Prop where
  batching : ∀ m, s.isTaskBatching m = s.nBatching m
  exec : ∀ m, s.isTaskExec m = s.nExec m
  batching_le : ∀ m, s.isTaskBatching m ≤ 1
  exec_le : ∀ m, s.isTaskExec m ≤ 1

theorem balanced_start (nBatchers nOutputs : Nat) (reqs : M → Nat) (netList : List (M × Nat))
    (loadedModels : List M) : Balanced (start nBatchers nOutputs reqs netList loadedModels) where
  batching := by
    intro m
    have hcount := Pool.count_replicate (Batcher.inBatch m) nBatchers (t := .idle) rfl
    simp [start, State.nBatching, hcount]
  exec := by
    intro m
    have hcount := Pool.count_replicate (Batcher.inExec m) nBatchers (t := .idle) rfl
    have hcount' := Pool.count_replicate (Output.holds m) nOutputs (t := .idle) rfl
    simp [start, State.nExec, hcount, hcount']
  batching_le := fun _ => Int.zero_le_ofNat 1
  exec_le := fun _ => Int.zero_le_ofNat 1

variable {s s' : State M}

/-- Steps that touch neither the counters nor the threads. -/
theorem Balanced.frame (h : Balanced s) (hbat : s'.isTaskBatching = s.isTaskBatching)
    (hexec : s'.isTaskExec = s.isTaskExec) (hbatchers : s'.batchers = s.batchers)
    (hqueue : s'.outputQueue = s.outputQueue) (houtputs : s'.outputs = s.outputs) :
    Balanced s' where
  batching := by
    intro m
    rw [hbat, State.nBatching, hbatchers]
    exact h.batching m
  exec := by
    intro m
    rw [hexec, State.nExec, hbatchers, hqueue, houtputs]
    exact h.exec m
  batching_le := by
    rw [hbat]
    exact h.batching_le
  exec_le := by
    rw [hexec]
    exact h.exec_le

/-- A batching thread moves, and the counters with it. -/
theorem Balanced.batcher (h : Balanced s) {i : Nat} {t t' : Batcher M}
    (hi : s.batchers[i]? = some t) (hbatchers : s'.batchers = s.batchers.set i t')
    (houtputs : s'.outputs = s.outputs)
    (hbat : ∀ m, s'.isTaskBatching m + (t.inBatch m).toNat =
      s.isTaskBatching m + (t'.inBatch m).toNat)
    (hexec : ∀ m, s'.isTaskExec m + (t.inExec m).toNat +
      Pool.count (fun m' => decide (m' = m)) s.outputQueue =
      s.isTaskExec m + (t'.inExec m).toNat +
      Pool.count (fun m' => decide (m' = m)) s'.outputQueue)
    (hbat_le : ∀ m, s'.isTaskBatching m ≤ 1) (hexec_le : ∀ m, s'.isTaskExec m ≤ 1) :
    Balanced s' where
  batching := by
    intro m
    have hcount := Pool.count_set (Batcher.inBatch m) hi t'
    have hold := h.batching m
    have hnew := hbat m
    rw [State.nBatching] at hold ⊢
    rw [hbatchers]
    omega
  exec := by
    intro m
    have hcount := Pool.count_set (Batcher.inExec m) hi t'
    have hold := h.exec m
    have hnew := hexec m
    rw [State.nExec] at hold ⊢
    rw [hbatchers, houtputs]
    omega
  batching_le := hbat_le
  exec_le := hexec_le

/-- An output thread moves, and `isTaskExec` with it. -/
theorem Balanced.output (h : Balanced s) {j : Nat} {o o' : Output M}
    (hj : s.outputs[j]? = some o) (houtputs : s'.outputs = s.outputs.set j o')
    (hbatchers : s'.batchers = s.batchers) (hbat : s'.isTaskBatching = s.isTaskBatching)
    (hexec : ∀ m, s'.isTaskExec m + (o.holds m).toNat +
      Pool.count (fun m' => decide (m' = m)) s.outputQueue =
      s.isTaskExec m + (o'.holds m).toNat +
      Pool.count (fun m' => decide (m' = m)) s'.outputQueue)
    (hexec_le : ∀ m, s'.isTaskExec m ≤ 1) : Balanced s' where
  batching := by
    intro m
    rw [hbat, State.nBatching, hbatchers]
    exact h.batching m
  exec := by
    intro m
    have hcount := Pool.count_set (Output.holds m) hj o'
    have hold := h.exec m
    have hnew := hexec m
    rw [State.nExec] at hold ⊢
    rw [hbatchers, houtputs]
    omega
  batching_le := by
    rw [hbat]
    exact h.batching_le
  exec_le := hexec_le

theorem Balanced.step {a : Act M} (h : Balanced s) (hstep : step a s = some s') : Balanced s' := by
  cases step_cases hstep with
  | take hi _ _ => exact h.batcher hi rfl rfl (fun _ => rfl) (fun _ => rfl) h.batching_le h.exec_le
  | @enter i task hi hfree =>
      refine h.batcher hi rfl rfl (fun m => ?_) (fun _ => rfl) ?_ h.exec_le
      · by_cases hm : task.reqName = m <;> simp [bump_apply, Batcher.inBatch, hm]
      · exact bump_le h.batching_le (by omega)
  | add hi _ => exact h.batcher hi rfl rfl (fun _ => rfl) (fun _ => rfl) h.batching_le h.exec_le
  | @giveUp i task hi =>
      have hone := h.batching_le task.reqName
      refine h.batcher hi rfl rfl (fun m => ?_) (fun _ => rfl)
        (bump_le h.batching_le (by omega)) h.exec_le
      by_cases hm : task.reqName = m <;> simp [bump_apply, Batcher.inBatch, hm]
  | @exec i n task hi hfree =>
      refine h.batcher hi rfl rfl (fun _ => rfl) (fun m => ?_) h.batching_le
        (bump_le h.exec_le (by omega))
      by_cases hm : task.reqName = m <;> simp [bump_apply, Batcher.inExec, hm]
  | @release i m₀ hi =>
      have hone := h.batching_le m₀
      refine h.batcher hi rfl rfl (fun m => ?_) (fun _ => rfl)
        (bump_le h.batching_le (by omega)) h.exec_le
      by_cases hm : m₀ = m <;> simp [bump_apply, Batcher.inBatch, hm]
  | @send i m₀ hi _ =>
      refine h.batcher hi rfl rfl (fun _ => rfl) (fun m => ?_) h.batching_le h.exec_le
      by_cases hm : m₀ = m <;> simp [Batcher.inExec, hm]
      all_goals omega
  | @pop j m₀ rest hj hq _ =>
      refine h.output hj rfl rfl rfl (fun m => ?_) h.exec_le
      by_cases hm : m₀ = m <;> simp [Output.holds, hm, hq]
      all_goals omega
  | recv hj => exact h.output hj rfl rfl rfl (fun _ => rfl) h.exec_le
  | @finish j m₀ hj =>
      have hone := h.exec_le m₀
      refine h.output hj rfl rfl rfl (fun m => ?_) (bump_le h.exec_le (by omega))
      by_cases hm : m₀ = m <;> simp [bump_apply, Output.holds, hm]
  | _ => exact h.frame rfl rfl rfl rfl rfl

/-- In every run, with any number of threads: the counters of a model are 0 or
1, `isTaskBatching` is the number of threads between their wait for it and their
decrement, and `isTaskExec` the number of batches past the wait for it whose
result is not processed. -/
theorem slots_exclusive {acts : List (Act M)} {nBatchers nOutputs : Nat} {reqs : M → Nat}
    {netList : List (M × Nat)} {loadedModels : List M}
    (hrun : Machine.run step acts (start nBatchers nOutputs reqs netList loadedModels) = some s)
    (m : M) :
    (s.isTaskBatching m = 0 ∨ s.isTaskBatching m = 1) ∧ (s.isTaskExec m = 0 ∨ s.isTaskExec m = 1) ∧
      s.isTaskBatching m = s.nBatching m ∧ s.isTaskExec m = s.nExec m := by
  have h : Balanced s := Machine.run_invariant (fun _ _ _ hI hs => hI.step hs) hrun
    (balanced_start nBatchers nOutputs reqs netList loadedModels)
  have hbat := h.batching m
  have hexec := h.exec m
  have hbat_le := h.batching_le m
  have hexec_le := h.exec_le m
  refine ⟨?_, ?_, hbat, hexec⟩ <;> omega

/-- Two threads with tasks for one model: one executes, the other has the
batching slot. -/
theorem slots_exclusive_two :
    ∃ s, Machine.run step [.decide, .queue, .queue, .take 0, .take 1, .enter 0, .add 0, .exec 0,
        .release 0, .enter 1, .add 1, .send 0, .pop 0]
        (start 2 1 (fun _ => 2) [((0 : Nat), 1), (0, 1)] [0]) = some s ∧
      s.isTaskBatching 0 = 1 ∧ s.isTaskExec 0 = 1 ∧
      (s.isTaskBatching 0 = s.nBatching 0 ∧ s.isTaskExec 0 = s.nExec 0) := by
  obtain ⟨s, hs, hp⟩ := (Option.any_eq_true
    (fun s : State Nat => decide (s.isTaskBatching 0 = 1 ∧ s.isTaskExec 0 = 1)) _).mp
    (show Option.any _ (Machine.run step [.decide, .queue, .queue, .take 0, .take 1, .enter 0, .add 0,
        .exec 0, .release 0, .enter 1, .add 1, .send 0, .pop 0]
        (start 2 1 (fun _ => 2) [((0 : Nat), 1), (0, 1)] [0])) = true by decide)
  have hp := of_decide_eq_true hp
  exact ⟨s, hs, hp.1, hp.2, (slots_exclusive hs 0).2.2⟩

end Glet.Slots
