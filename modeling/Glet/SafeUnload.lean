import Glet.BatchSlots

/-!
# Unloading a model that has no tasks

When `unloadModel_async` has seen the task queue empty and the two counters of a
model at 0, it takes the model to be unused. It reads the three one after the
other, but a task moves in the same order, and a model that is not in the new
net list gets no more tasks: what has been seen empty stays empty (`Clear`).

There is one gap. A task that has left the queue is in neither counter until its
thread increments `isTaskBatching`.
-/

namespace Glet.Slots

variable {M : Type} [DecidableEq M] {s s' : State M}

/-! ## Safety -/

/-- When `unloadModel_async` calls `makeProxyUnloadModel` for a model, and ever
after, no thread has a task for the model. A thread has one from the time it
takes it from the queue to the time it calls `sendBatchedRequest`. -/
def UnloadSafe (s : State M) : Prop :=
  ∀ m, (m ∈ s.unloaded ∨ ∃ todo, s.unloader = .cleared m todo) → ∀ t ∈ s.batchers, t.stage m = 0

/-- The model whose tasks the unloader looks for. -/
def Unloader.target : Unloader M → Option M
  | .scanning (m :: _) => some m
  | _ => none

/-- When the unloader finds the task queue empty, no thread has taken a task for
the model without having incremented `isTaskBatching`. -/
def NoneInBetween (s : State M) : Act M → Prop
  | .readQueue => s.batchQueue = [] → ∀ m ∈ s.unloader.target, ∀ t ∈ s.batchers, t.stage m ≠ 1
  | _ => True

instance (s : State M) (a : Act M) : Decidable (NoneInBetween s a) := by
  unfold NoneInBetween
  have : Decidable (s.batchQueue = []) := decidable_of_iff _ List.isEmpty_iff
  split <;> infer_instance

/-! ## What the unloader knows -/

/-- No task for the model is on its way to a stage up to `k`: what the unloader
knows after each of its reads. -/
structure Clear (k : Nat) (s : State M) (m : M) : Prop where
  netList : ∀ p ∈ s.netList, p.1 ≠ m
  decision : ∀ d ∈ s.decision, d.reqName ≠ m
  queue : ∀ d ∈ s.batchQueue, d.reqName ≠ m
  batchers : ∀ t ∈ s.batchers, t.stage m = 0 ∨ k < t.stage m

/-- Where the unloader is makes no difference. -/
theorem Clear.unloader {k : Nat} {m : M} (h : Clear k s m) (u : Unloader M) :
    Clear k { s with unloader := u } m :=
  ⟨h.netList, h.decision, h.queue, h.batchers⟩

/-- Tasks only move on. -/
theorem Clear.set {k : Nat} {m : M} (h : Clear k s m) {i : Nat} {t t' : Batcher M}
    (hi : s.batchers[i]? = some t) (hmove : t'.stage m = 0 ∨ t.stage m ≤ t'.stage m ∧ t.stage m ≠ 0) :
    ∀ u ∈ s.batchers.set i t', u.stage m = 0 ∨ k < u.stage m := by
  refine Pool.forall_set h.batchers ?_
  have ht := h.batchers t (List.mem_of_getElem? hi)
  omega

omit [DecidableEq M] in
theorem mem_staticMPSScheduler {task : TaskSpec M} (h : task ∈ staticMPSScheduler s) :
    ∃ p ∈ s.netList, p.1 = task.reqName := by
  unfold staticMPSScheduler at h
  split at h
  case isTrue => cases h
  case isFalse =>
    obtain ⟨p, hp, rfl⟩ := List.mem_map.mp h
    exact ⟨p, (List.mem_filter.mp hp).1, rfl⟩

theorem Clear.step {k : Nat} {m : M} {a : Act M} (h : Clear k s m)
    (hstarted : s.unloader ≠ .notStarted) (hstep : step a s = some s') : Clear k s' m := by
  cases step_cases hstep with
  | decide _ =>
      refine ⟨h.netList, fun d hd hm => ?_, h.queue, h.batchers⟩
      obtain ⟨p, hp, heq⟩ := mem_staticMPSScheduler hd
      exact h.netList p hp (heq.trans hm)
  | queue hdec =>
      have hall := h.decision
      rw [hdec, List.forall_mem_cons] at hall
      refine ⟨h.netList, hall.2, fun d hd => ?_, h.batchers⟩
      rcases List.mem_append.mp hd with hold | hnew
      · exact h.queue d hold
      · rw [List.mem_singleton.mp hnew]
        exact hall.1
  | route _ hun => exact absurd hun hstarted
  | drop _ hq _ =>
      have hall := h.queue
      rw [hq, List.forall_mem_cons] at hall
      exact ⟨h.netList, h.decision, hall.2, h.batchers⟩
  | take hi hq _ =>
      have hall := h.queue
      rw [hq, List.forall_mem_cons] at hall
      exact ⟨h.netList, h.decision, hall.2, h.set hi (Or.inl (if_neg hall.1))⟩
  | @enter i task hi _ =>
      refine ⟨h.netList, h.decision, h.queue, h.set hi ?_⟩
      by_cases hm : task.reqName = m <;> simp [Batcher.stage, hm]
  | @add i n task hi _ =>
      refine ⟨h.netList, h.decision, h.queue, h.set hi ?_⟩
      by_cases hm : task.reqName = m <;> simp [Batcher.stage, hm]
  | giveUp hi => exact ⟨h.netList, h.decision, h.queue, h.set hi (Or.inl rfl)⟩
  | @exec i n task hi _ =>
      refine ⟨h.netList, h.decision, h.queue, h.set hi ?_⟩
      by_cases hm : task.reqName = m <;> simp [Batcher.stage, hm]
  | @release i m₀ hi =>
      refine ⟨h.netList, h.decision, h.queue, h.set hi ?_⟩
      by_cases hm : m₀ = m <;> simp [Batcher.stage, hm]
  | send hi _ => exact ⟨h.netList, h.decision, h.queue, h.set hi (Or.inl rfl)⟩
  | _ => exact ⟨h.netList, h.decision, h.queue, h.batchers⟩

/-- A thread with the batching slot is counted. -/
theorem Clear.sawBatching {m : M} (h : Clear 1 s m) (hbal : Balanced s)
    (hzero : s.isTaskBatching m = 0) : Clear 2 s m := by
  refine ⟨h.netList, h.decision, h.queue, ?_⟩
  intro t ht
  have hcount : Pool.count (Batcher.inBatch m) s.batchers = 0 := by
    have := hbal.batching m
    rw [State.nBatching] at this
    omega
  have hnot := Pool.count_eq_zero.mp hcount t ht
  have hone := h.batchers t ht
  cases t <;> simp only [Batcher.inBatch, Batcher.stage] at hnot hone ⊢ <;> grind

/-- A thread with the execution slot is counted. -/
theorem Clear.sawExec {m : M} (h : Clear 2 s m) (hbal : Balanced s)
    (hzero : s.isTaskExec m = 0) : Clear 3 s m := by
  refine ⟨h.netList, h.decision, h.queue, ?_⟩
  intro t ht
  have hcount : Pool.count (Batcher.inExec m) s.batchers = 0 := by
    have := hbal.exec m
    rw [State.nExec] at this
    omega
  have hnot := Pool.count_eq_zero.mp hcount t ht
  have htwo := h.batchers t ht
  cases t <;> simp only [Batcher.inExec, Batcher.stage] at hnot htwo ⊢ <;> grind

/-- What the unloader knows at each place. -/
structure Known (s : State M) : Prop where
  decided : ∀ d ∈ s.decision, ∃ p ∈ s.netList, p.1 = d.reqName
  routed : s.unloader ≠ .notStarted → ∀ p ∈ s.netList, p.1 ∈ s.exempting
  none_unloaded : s.unloader = .notStarted → s.unloaded = []
  sawQueue : ∀ m todo, s.unloader = .sawQueue m true todo → Clear 1 s m
  sawBatching : ∀ m todo, s.unloader = .sawBatching m true todo → Clear 2 s m
  cleared : ∀ m todo, s.unloader = .cleared m todo → Clear 3 s m
  unloaded : ∀ m ∈ s.unloaded, Clear 3 s m

theorem known_start (nBatchers nOutputs : Nat) (reqs : M → Nat) (netList : List (M × Nat))
    (loadedModels : List M) : Known (start nBatchers nOutputs reqs netList loadedModels) := by
  constructor <;> simp [start]

theorem Known.unloadSafe (h : Known s) : UnloadSafe s := by
  intro m hm t ht
  have hclear : Clear 3 s m := by
    rcases hm with hm | ⟨todo, hm⟩
    · exact h.unloaded m hm
    · exact h.cleared m todo hm
  have hstage : t.stage m ≤ 3 := by
    cases t <;> simp only [Batcher.stage] <;> (try split) <;> omega
  have := hclear.batchers t ht
  omega

/-- The decided tasks are for models of the net list. -/
theorem decided_step {a : Act M} (h : ∀ d ∈ s.decision, ∃ p ∈ s.netList, p.1 = d.reqName)
    (hstep : step a s = some s') : ∀ d ∈ s'.decision, ∃ p ∈ s'.netList, p.1 = d.reqName := by
  cases step_cases hstep with
  | decide _ => exact fun d hd => mem_staticMPSScheduler hd
  | queue hdec =>
      intro d hd
      exact h d (by rw [hdec]; exact List.mem_cons_of_mem _ hd)
  | route hdec _ =>
      intro d hd
      rw [hdec] at hd
      cases hd
  | _ => exact h

/-- Steps of the other threads leave the unloader where it is. -/
theorem Known.others (h : Known s) {a : Act M} (hstep : step a s = some s')
    (hunloader : s'.unloader = s.unloader) (hunloaded : s'.unloaded = s.unloaded)
    (hrouted : s'.unloader ≠ .notStarted → ∀ p ∈ s'.netList, p.1 ∈ s'.exempting) : Known s' where
  decided := decided_step h.decided hstep
  routed := hrouted
  none_unloaded := by
    rw [hunloader, hunloaded]
    exact h.none_unloaded
  sawQueue := by
    intro m todo hm
    rw [hunloader] at hm
    exact (h.sawQueue m todo hm).step (by rw [hm]; exact fun heq => by cases heq) hstep
  sawBatching := by
    intro m todo hm
    rw [hunloader] at hm
    exact (h.sawBatching m todo hm).step (by rw [hm]; exact fun heq => by cases heq) hstep
  cleared := by
    intro m todo hm
    rw [hunloader] at hm
    exact (h.cleared m todo hm).step (by rw [hm]; exact fun heq => by cases heq) hstep
  unloaded := by
    intro m hm
    rw [hunloaded] at hm
    refine (h.unloaded m hm).step (fun hnot => ?_) hstep
    rw [h.none_unloaded hnot] at hm
    cases hm

/-- The unloader moves; the tasks stay where they are. -/
theorem Known.moves (h : Known s) {u : Unloader M} (hstarted : s.unloader ≠ .notStarted)
    (hu : u ≠ .notStarted)
    (hqueue : ∀ m todo, u = .sawQueue m true todo → Clear 1 s m)
    (hbatching : ∀ m todo, u = .sawBatching m true todo → Clear 2 s m)
    (hcleared : ∀ m todo, u = .cleared m todo → Clear 3 s m) : Known { s with unloader := u } where
  decided := h.decided
  routed := fun _ => h.routed hstarted
  none_unloaded := fun heq => absurd heq hu
  sawQueue := fun m todo heq => (hqueue m todo heq).unloader u
  sawBatching := fun m todo heq => (hbatching m todo heq).unloader u
  cleared := fun m todo heq => (hcleared m todo heq).unloader u
  unloaded := fun m hm => (h.unloaded m hm).unloader u

theorem Known.step {a : Act M} (h : Known s) (hbal : Balanced s) (hnone : NoneInBetween s a)
    (hstep : step a s = some s') : Known s' := by
  cases step_cases hstep with
  | route _ hun => exact h.others hstep rfl rfl fun hnot => absurd hun hnot
  | unload hun hall =>
      have hunloaded := h.none_unloaded hun
      refine ⟨h.decided, fun _ => hall, by simp, by simp, by simp, by simp, ?_⟩
      intro m hm
      change m ∈ s.unloaded at hm
      rw [hunloaded] at hm
      cases hm
  | skip hun _ => exact h.moves (by rw [hun]; simp) (by simp) (by simp) (by simp) (by simp)
  | @readQueue m todo hun hexempt =>
      have hstarted : s.unloader ≠ .notStarted := by rw [hun]; simp
      refine h.moves hstarted (by simp) ?_ (by simp) (by simp)
      intro m' todo' heq
      obtain ⟨rfl, hempty, rfl⟩ := Unloader.sawQueue.inj heq
      have hq : s.batchQueue = [] := by simpa using hempty
      have hnet : ∀ p ∈ s.netList, p.1 ≠ m := by
        intro p hp hpm
        exact hexempt (hpm ▸ h.routed hstarted p hp)
      refine ⟨hnet, ?_, ?_, ?_⟩
      · intro d hd hdm
        obtain ⟨p, hp, hpd⟩ := h.decided d hd
        exact hnet p hp (hpd.trans hdm)
      · rw [hq]
        intro d hd
        cases hd
      · intro t ht
        have hstage := hnone hq m (by rw [hun]; rfl) t ht
        omega
  | @readBatching m clear todo hun =>
      refine h.moves (by rw [hun]; simp) (by simp) (by simp) ?_ (by simp)
      intro m' todo' heq
      obtain ⟨rfl, hclear, rfl⟩ := Unloader.sawBatching.inj heq
      obtain ⟨rfl, hzero⟩ : clear = true ∧ s.isTaskBatching m = 0 := by simpa using hclear
      exact (h.sawQueue m todo hun).sawBatching hbal hzero
  | again hun _ => exact h.moves (by rw [hun]; simp) (by simp) (by simp) (by simp) (by simp)
  | @clear m clear todo hun hclear =>
      refine h.moves (by rw [hun]; simp) (by simp) (by simp) (by simp) ?_
      intro m' todo' heq
      obtain ⟨rfl, rfl⟩ := Unloader.cleared.inj heq
      obtain ⟨rfl, hzero⟩ := hclear
      exact (h.sawBatching m todo hun).sawExec hbal hzero
  | @issue m todo hun =>
      have hstarted : s.unloader ≠ .notStarted := by rw [hun]; simp
      refine ⟨h.decided, fun _ => h.routed hstarted, by simp, by simp, by simp, by simp, ?_⟩
      intro m' hm'
      have hc : Clear 3 s m' := by
        rcases List.mem_append.mp hm' with hold | hnew
        · exact h.unloaded m' hold
        · rw [List.mem_singleton.mp hnew]
          exact h.cleared m todo hun
      exact ⟨hc.netList, hc.decision, hc.queue, hc.batchers⟩
  | _ => exact h.others hstep rfl rfl h.routed

/-- In every run in which no thread is between taking a task for the model and
incrementing `isTaskBatching` when the unloader finds the queue empty, no thread
has a task for a model that is unloaded. -/
theorem unload_safe {acts : List (Act M)} {nBatchers nOutputs : Nat} {reqs : M → Nat}
    {netList : List (M × Nat)} {loadedModels : List M}
    (hrun : Machine.run step acts (start nBatchers nOutputs reqs netList loadedModels) = some s)
    (hnone : Machine.Along step NoneInBetween acts
      (start nBatchers nOutputs reqs netList loadedModels)) : UnloadSafe s := by
  have h := Machine.run_along (I := fun s => Balanced s ∧ Known s)
    (fun _ _ _ hI hC hs => ⟨hI.1.step hs, hI.2.step hI.1 hC hs⟩) hnone hrun
    ⟨balanced_start nBatchers nOutputs reqs netList loadedModels,
      known_start nBatchers nOutputs reqs netList loadedModels⟩
  exact h.2.unloadSafe

/-- A model is unloaded after its batch was executed. -/
theorem unload_safe_after_batch :
    ∃ s, Machine.run step [.decide, .queue, .take 0, .enter 0, .route [], .unload [], .readQueue,
        .readBatching, .readExec, .add 0, .exec 0, .release 0, .send 0, .pop 0, .recv 0, .finish 0,
        .readQueue, .readBatching, .readExec, .issue]
        (start 1 1 (fun _ => 1) [((0 : Nat), 1)] [0]) = some s ∧ s.unloaded = [0] ∧ UnloadSafe s := by
  obtain ⟨s, hs, hp⟩ := (Option.any_eq_true
    (fun s : State Nat => decide (s.unloaded = [0])) _).mp
    (show Option.any _ (Machine.run step [.decide, .queue, .take 0, .enter 0, .route [], .unload [],
        .readQueue, .readBatching, .readExec, .add 0, .exec 0, .release 0, .send 0, .pop 0, .recv 0,
        .finish 0, .readQueue, .readBatching, .readExec, .issue]
        (start 1 1 (fun _ => 1) [((0 : Nat), 1)] [0])) = true by decide)
  exact ⟨s, hs, of_decide_eq_true hp, unload_safe hs (by decide)⟩

/-- A thread takes the task, the unloader reads three zeros and unloads the
model, and the thread goes on to send its batch. -/
theorem unload_while_popped :
    ∃ s s', Machine.run step [.decide, .queue, .take 0, .route [], .unload [], .readQueue,
        .readBatching, .readExec, .issue, .enter 0, .add 0, .exec 0, .release 0]
        (start 1 1 (fun _ => 1) [((0 : Nat), 1)] [0]) = some s ∧ ¬ UnloadSafe s ∧
      s.unloaded = [0] ∧ step (.send 0) s = some s' ∧ s'.outputQueue = [0] := by
  obtain ⟨s, hs, hp⟩ := (Option.any_eq_true
    (fun s : State Nat => decide (s.unloaded = [0] ∧ (∃ t ∈ s.batchers, t.stage 0 = 3) ∧
      (step (.send 0) s).any (fun s' => decide (s'.outputQueue = [0])) = true)) _).mp
    (show Option.any _ (Machine.run step [.decide, .queue, .take 0, .route [], .unload [], .readQueue,
        .readBatching, .readExec, .issue, .enter 0, .add 0, .exec 0, .release 0]
        (start 1 1 (fun _ => 1) [((0 : Nat), 1)] [0])) = true by decide)
  obtain ⟨hun, ⟨t, ht, hstage⟩, hsend⟩ := of_decide_eq_true hp
  obtain ⟨s', hs', hq⟩ := (Option.any_eq_true _ _).mp hsend
  refine ⟨s, s', hs, ?_, hun, hs', of_decide_eq_true hq⟩
  intro hsafe
  have := hsafe 0 (Or.inl (by rw [hun]; simp)) t ht
  omega

end Glet.Slots
